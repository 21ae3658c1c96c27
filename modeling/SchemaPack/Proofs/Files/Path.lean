import SchemaPack.Files.Path
import SchemaPack.Proofs.Text

namespace SchemaPack.Path

/-- A text that is the name of an entry in a directory. -/
structure IsPlain (name : String) : Prop where
  apart : '/' ∉ name.toList
  entry : step? name = some (.entry name)

theorem IsPlain.ne_empty {name : String} (plain : IsPlain name) : name ≠ "" := by
  rintro rfl
  exact absurd plain.entry (by decide)

theorem eq_of_step?_eq_entry {part name : String} (step : step? part = some (.entry name)) :
    part = name := by
  unfold step? at step
  split at step
  · cases step
  · split at step
    · cases step
    · exact PathStep.entry.inj (Option.some.inj step)

theorem parts_of_ne_empty {text : String} (other : text ≠ "") :
    Path.parts ⟨text⟩ = splitText '/' text := by
  rw [parts, if_neg]
  rwa [String.isEmpty_iff]

theorem parts_ne_nil {p : Path} (named : p.text ≠ "") : p.parts ≠ [] := by
  rw [parts_of_ne_empty named, splitText]
  exact fun none_ => splitAt_ne_nil (List.map_eq_nil_iff.mp none_)

theorem parts_join (p : Path) : ∃ above, ∀ name, IsPlain name →
    (p.join name).parts = above ++ [name] := by
  have singleton : "/" = String.singleton '/' := rfl
  by_cases empty : p.text.isEmpty
  · refine ⟨[], fun name plain => ?_⟩
    have same : p.text = "" := String.isEmpty_iff.mp empty
    rw [join, if_pos (by simp [same]), same, String.empty_append,
      parts_of_ne_empty plain.ne_empty, splitText, splitAt_of_notMem plain.apart,
      List.map_singleton, String.ofList_toList, List.nil_append]
  by_cases slash : p.text.toList.getLast? = some '/'
  · -- the slash at the end is the one that would be put between the two
    obtain ⟨front, shape⟩ := List.getLast?_eq_some_iff.mp slash
    have text : p.text = String.ofList front ++ "/" := by
      apply String.toList_injective
      rw [shape, String.toList_append, String.toList_ofList]
      rfl
    refine ⟨splitText '/' (String.ofList front), fun name plain => ?_⟩
    rw [join, if_pos (by simp [slash]), text, parts_of_ne_empty (by simp),
      singleton, splitText_append _ plain.apart]
  · refine ⟨splitText '/' p.text, fun name plain => ?_⟩
    rw [join, if_neg (by simp [empty, slash]), parts_of_ne_empty (by simp), singleton,
      splitText_append _ plain.apart]

theorem mem_of_mem_filterMap {parts : List String} {name : String}
    (listed : .entry name ∈ parts.filterMap step?) : name ∈ parts := by
  obtain ⟨part, member, step⟩ := List.mem_filterMap.mp listed
  rwa [← eq_of_step?_eq_entry step]

theorem mem_parts_of_mem_steps {p : Path} {name : String} (listed : .entry name ∈ p.steps) :
    name ∈ p.parts := by
  unfold steps at listed
  split at listed
  · rename_i rest shape
    have later := (List.mem_cons.mp listed).resolve_left PathStep.noConfusion
    rw [shape]
    exact List.mem_cons_of_mem _ (mem_of_mem_filterMap later)
  · rename_i rest shape
    have later := (List.mem_cons.mp listed).resolve_left PathStep.noConfusion
    rw [shape]
    exact List.mem_cons_of_mem _ (mem_of_mem_filterMap later)
  · exact mem_of_mem_filterMap listed

theorem notMem_of_mem_parts {p : Path} {part : String} (listed : part ∈ p.parts) :
    '/' ∉ part.toList := by
  unfold parts at listed
  split at listed
  · exact absurd listed List.not_mem_nil
  · exact notMem_of_mem_splitText listed

theorem mem_of_mem_stemOfName {name : String} {c : Char}
    (listed : c ∈ (stemOfName name).toList) : c ∈ name.toList := by
  unfold stemOfName at listed
  split at listed
  · exact listed
  · exact listed
  · rename_i first stem shape
    rw [String.toList_ofList, List.mem_reverse] at listed
    have rest : c ∈ name.toList.reverse.dropWhile (· != '.') := by
      rw [shape]
      exact List.mem_cons_of_mem _ listed
    exact List.mem_reverse.mp (List.dropWhile_subset _ rest)

theorem notMem_stem? {p : Path} {stem : String} (known : p.stem? = some stem) :
    '/' ∉ stem.toList := by
  unfold stem? at known
  split at known
  · rename_i name last
    rw [← Option.some.inj known]
    have listed := mem_parts_of_mem_steps (List.mem_of_getLast? last)
    exact fun slash => notMem_of_mem_parts listed (mem_of_mem_stemOfName slash)
  · cases known

end SchemaPack.Path
