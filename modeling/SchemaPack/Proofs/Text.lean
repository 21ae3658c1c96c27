import SchemaPack.Text

namespace SchemaPack

section Parts

variable {separator : Char} {cs : List Char}

theorem splitAt_ne_nil : splitAt separator cs ≠ [] := by
  fun_induction splitAt separator cs <;> exact List.cons_ne_nil _ _

theorem splitAt_of_notMem (absent : separator ∉ cs) : splitAt separator cs = [cs] := by
  induction cs with
  | nil => rfl
  | cons c cs ih =>
    rw [List.mem_cons, not_or] at absent
    rw [splitAt, if_neg (Ne.symm absent.1), ih absent.2]

theorem splitAt_append_cons (cs rest : List Char) :
    splitAt separator (cs ++ separator :: rest) =
      splitAt separator cs ++ splitAt separator rest := by
  induction cs with
  | nil =>
    rw [List.nil_append, splitAt, splitAt, if_pos rfl, List.singleton_append]
  | cons c cs ih =>
    obtain ⟨part, others, shape⟩ := List.exists_cons_of_ne_nil (@splitAt_ne_nil separator cs)
    rw [List.cons_append, splitAt, splitAt, ih, shape]
    split
    · rfl
    · rfl

theorem splitAt_append (rest : List Char) (absent : separator ∉ cs) :
    splitAt separator (cs ++ separator :: rest) = cs :: splitAt separator rest := by
  rw [splitAt_append_cons, splitAt_of_notMem absent, List.singleton_append]

theorem splitAt_flatMap {α : Type} (text : α → List Char) (first : α) (others : List α)
    (apart : ∀ part, separator ∉ text part) :
    splitAt separator (text first ++ others.flatMap fun part => separator :: text part) =
      text first :: others.map text := by
  induction others generalizing first with
  | nil => rw [List.flatMap_nil, List.append_nil, splitAt_of_notMem (apart first), List.map_nil]
  | cons next rest ih =>
    rw [List.flatMap_cons, List.cons_append, splitAt_append _ (apart first), ih next, List.map_cons]

theorem notMem_of_mem_splitAt {part : List Char} (listed : part ∈ splitAt separator cs) :
    separator ∉ part := by
  fun_induction splitAt separator cs generalizing part with
  | case1 =>
    rw [List.mem_singleton.mp listed]
    exact List.not_mem_nil
  | case2 rest ih =>
    rcases List.mem_cons.mp listed with rfl | later
    · exact List.not_mem_nil
    · exact ih later
  | case3 c rest other empty ih => exact absurd empty splitAt_ne_nil
  | case4 c rest other first others shape ih =>
    rw [shape] at ih
    rcases List.mem_cons.mp listed with rfl | later
    · have apart := ih List.mem_cons_self
      rw [List.mem_cons, not_or]
      exact ⟨Ne.symm other, apart⟩
    · exact ih (List.mem_cons_of_mem _ later)

end Parts

theorem notMem_of_mem_splitText {separator : Char} {text part : String}
    (listed : part ∈ splitText separator text) : separator ∉ part.toList := by
  obtain ⟨cs, split, rfl⟩ := List.mem_map.mp listed
  rw [String.toList_ofList]
  exact notMem_of_mem_splitAt split

theorem splitText_append {separator : Char} {name : String} (above : String)
    (apart : separator ∉ name.toList) :
    splitText separator (above ++ String.singleton separator ++ name) =
      splitText separator above ++ [name] := by
  unfold splitText
  rw [String.toList_append, String.toList_append, String.toList_singleton, List.append_assoc,
    List.singleton_append, splitAt_append_cons, splitAt_of_notMem apart, List.map_append,
    List.map_singleton, String.ofList_toList]

end SchemaPack
