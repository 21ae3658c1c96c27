import Mathlib.Algebra.Ring.Nat
import SchemaPack.Proofs.Json.Members

namespace SchemaPack

namespace Members

def total (count : String → Json → Nat) (members : Members) : Nat :=
  (members.map fun entry => count entry.1 entry.2).sum

def share (count : String → Json → Nat) (members : Members) (name : String) : Nat :=
  ((members.get? name).map (count name)).getD 0

variable {count : String → Json → Nat}

@[simp] theorem total_nil : total count [] = 0 := rfl

theorem total_cons (entry : String × Json) (rest : Members) :
    total count (entry :: rest) = count entry.1 entry.2 + total count rest := by
  simp only [total, List.map_cons, List.sum_cons]

theorem total_append (members others : Members) :
    total count (members ++ others) = total count members + total count others := by
  simp only [total, List.map_append, List.sum_append]

theorem total_mono {more : String → Json → Nat} (members : Members)
    (le : ∀ name value, count name value ≤ more name value) :
    total count members ≤ total more members := by
  induction members with
  | nil => exact Nat.le_refl _
  | cons entry rest ih =>
    rw [total_cons, total_cons]
    have first := le entry.1 entry.2
    omega

theorem total_add (more : String → Json → Nat) (members : Members) :
    total (fun name value => count name value + more name value) members =
      total count members + total more members := by
  induction members with
  | nil => rfl
  | cons entry rest ih =>
    simp only [total_cons, ih]
    omega

theorem total_filter_add_le {keep other : String → Bool}
    (apart : ∀ name, keep name = true → other name = false) (members : Members) :
    total count (members.filter fun entry => keep entry.1) +
      total count (members.filter fun entry => other entry.1) ≤ total count members := by
  induction members with
  | nil => exact Nat.le_refl _
  | cons entry rest ih =>
    rw [List.filter_cons, List.filter_cons, total_cons]
    cases kept : keep entry.1 with
    | true =>
      rw [apart entry.1 kept]
      simp only [if_true, Bool.false_eq_true, if_false, total_cons]
      omega
    | false =>
      cases other entry.1 with
      | true =>
        simp only [if_true, Bool.false_eq_true, if_false, total_cons]
        omega
      | false =>
        simp only [Bool.false_eq_true, if_false]
        omega

theorem get?_eq_none {members : Members} {name : String} (absent : name ∉ members.map (·.1)) :
    members.get? name = none := by
  induction members with
  | nil => rfl
  | cons entry rest ih =>
    rw [List.map_cons, List.mem_cons, not_or] at absent
    rw [get?_cons, if_neg (Ne.symm absent.1), ih absent.2]

theorem total_erase {members : Members} (distinct : (members.map (·.1)).Nodup) (name : String) :
    total count (erase members name) + share count members name = total count members := by
  induction members with
  | nil => rfl
  | cons entry rest ih =>
    rw [List.map_cons, List.nodup_cons] at distinct
    have rest_total := ih distinct.2
    unfold share erase at rest_total ⊢
    rw [List.filter_cons, get?_cons, total_cons]
    by_cases same : entry.1 = name
    · subst same
      rw [get?_eq_none distinct.1] at rest_total
      simp only [Option.map_none, Option.getD_none, Nat.add_zero] at rest_total
      simp only [bne_self_eq_false, Bool.false_eq_true, if_false, if_true, Option.map_some,
        Option.getD_some, rest_total]
      omega
    · rw [if_pos (bne_iff_ne.mpr same), if_neg same, total_cons]
      omega

theorem total_erase_share_le (members : Members) (name : String) :
    total count (erase members name) + share count members name ≤ total count members := by
  induction members with
  | nil => exact Nat.le_refl _
  | cons entry rest ih =>
    unfold share erase at ih ⊢
    rw [List.filter_cons, get?_cons, total_cons]
    by_cases same : entry.1 = name
    · subst same
      simp only [bne_self_eq_false, Bool.false_eq_true, if_false, if_true, Option.map_some,
        Option.getD_some]
      omega
    · rw [if_pos (bne_iff_ne.mpr same), if_neg same, total_cons]
      omega

theorem total_replace {members : Members} (distinct : (members.map (·.1)).Nodup) {name : String}
    (value : Json) (present : (members.get? name).isSome = true) :
    total count (members.map fun entry => if entry.1 == name then (name, value) else entry) +
      share count members name = total count members + count name value := by
  induction members with
  | nil => cases present
  | cons entry rest ih =>
    rw [List.map_cons, List.nodup_cons] at distinct
    unfold share at ih ⊢
    rw [get?_cons] at present ⊢
    rw [List.map_cons, total_cons, total_cons]
    by_cases same : entry.1 = name
    · subst same
      have untouched : rest.map (fun other => if other.1 == entry.1 then (entry.1, value)
          else other) = rest := by
        refine (List.map_congr_left ?_).trans (List.map_id rest)
        intro other member
        rw [if_neg, id_eq]
        intro same
        exact distinct.1 (List.mem_map.mpr ⟨other, member, beq_iff_eq.mp same⟩)
      simp only [beq_self_eq_true, if_true, untouched, Option.map_some, Option.getD_some]
      omega
    · rw [if_neg same] at present ⊢
      have rest_total := ih distinct.2 present
      rw [if_neg (mt beq_iff_eq.mp same)]
      omega

theorem total_insert {members : Members} (distinct : (members.map (·.1)).Nodup) (name : String)
    (value : Json) :
    total count (insert members name value) + share count members name =
      total count members + count name value := by
  unfold insert
  rw [contains_eq]
  split
  · rename_i present
    exact total_replace distinct value present
  · rename_i absent
    rw [Bool.not_eq_true, Option.isSome_eq_false_iff, Option.isNone_iff_eq_none] at absent
    rw [total_append, total_cons, total_nil, share, absent]
    simp only [Option.map_none, Option.getD_none]
    omega

theorem nodup_erase {members : Members} (distinct : (members.map (·.1)).Nodup) (name : String) :
    ((erase members name).map (·.1)).Nodup :=
  distinct.sublist (List.filter_sublist.map _)

theorem nodup_insert {members : Members} (distinct : (members.map (·.1)).Nodup) (name : String)
    (value : Json) : ((insert members name value).map (·.1)).Nodup := by
  unfold insert
  split
  · have names : (members.map fun entry => if entry.1 == name then (name, value) else entry).map
        (·.1) = members.map (·.1) := by
      rw [List.map_map]
      apply List.map_congr_left
      intro entry _
      by_cases same : entry.1 = name
      · simp only [Function.comp_apply, same, beq_self_eq_true, if_true]
      · simp only [Function.comp_apply, if_neg (mt beq_iff_eq.mp same)]
    rw [names]
    exact distinct
  · rename_i absent
    have fresh : name ∉ members.map (·.1) := by
      intro present
      obtain ⟨entry, member, same⟩ := List.mem_map.mp present
      exact absent (List.any_eq_true.mpr ⟨entry, member, beq_iff_eq.mpr same⟩)
    rw [List.map_append, List.nodup_append]
    refine ⟨distinct, List.pairwise_singleton _ _, ?_⟩
    intro key member other single
    rw [List.map_cons, List.map_nil, List.mem_singleton] at single
    rw [single]
    rintro rfl
    exact fresh member

theorem mem_insert {members : Members} {name : String} {value : Json} {entry : String × Json}
    (member : entry ∈ insert members name value) : entry ∈ members ∨ entry = (name, value) := by
  unfold insert at member
  split at member
  · obtain ⟨old, inside, same⟩ := List.mem_map.mp member
    split at same
    · exact .inr same.symm
    · exact .inl (same ▸ inside)
  · rcases List.mem_append.mp member with inside | added
    · exact .inl inside
    · exact .inr (List.mem_singleton.mp added)

theorem mem_of_get? {members : Members} {name : String} {value : Json}
    (found : members.get? name = some value) : (name, value) ∈ members := by
  induction members with
  | nil => cases found
  | cons entry rest ih =>
    rw [get?_cons] at found
    split at found
    · rename_i same
      cases found
      subst same
      exact List.mem_cons_self
    · exact List.mem_cons_of_mem _ (ih found)

end Members

namespace Json

variable {count : String → Json → Nat}

def total (count : String → Json → Nat) (node : Json) : Nat :=
  (node.members?.map (Members.total count)).getD 0

def share (count : String → Json → Nat) (node : Json) (name : String) : Nat :=
  ((node.get? name).map (count name)).getD 0

def names (node : Json) : List String := (node.members?.map (·.map (·.1))).getD []

theorem share_of_get? {node : Json} {name : String} {value : Json}
    (found : node.get? name = some value) : share count node name = count name value := by
  rw [share, found]
  rfl

theorem total_mono {more : String → Json → Nat} (node : Json)
    (le : ∀ name value, count name value ≤ more name value) :
    total count node ≤ total more node := by
  cases node with
  | object members => exact Members.total_mono members le
  | null | bool | number | string | array => exact Nat.le_refl _

theorem nodup_erase {node : Json} (distinct : node.names.Nodup) (name : String) :
    (node.erase name).names.Nodup := by
  cases node with
  | object members => exact Members.nodup_erase distinct name
  | null | bool | number | string | array => exact List.nodup_nil

theorem nodup_insert {node : Json} (distinct : node.names.Nodup) (name : String) (value : Json) :
    (node.insert name value).names.Nodup := by
  cases node with
  | object members => exact Members.nodup_insert distinct name value
  | null | bool | number | string | array => exact List.nodup_nil

theorem total_erase {node : Json} (distinct : node.names.Nodup) (name : String) :
    total count (node.erase name) + share count node name = total count node := by
  cases node with
  | object members => exact Members.total_erase distinct name
  | null | bool | number | string | array => rfl

theorem total_insert_le {node : Json} (distinct : node.names.Nodup) (name : String)
    (value : Json) :
    total count (node.insert name value) + share count node name ≤
      total count node + count name value := by
  cases node with
  | object members => exact Nat.le_of_eq (Members.total_insert distinct name value)
  | null | bool | number | string | array => exact Nat.zero_le _

theorem total_eraseAll_le {node : Json} (distinct : node.names.Nodup) (names : List String) :
    total count (node.eraseAll names) ≤ total count node := by
  unfold eraseAll
  induction names generalizing node with
  | nil => exact Nat.le_refl _
  | cons name rest ih =>
    have first := @total_erase count node distinct name
    have later := ih (nodup_erase distinct name)
    rw [List.foldl_cons]
    omega

theorem total_eraseAll_share_le {node : Json} (distinct : node.names.Nodup) {names : List String}
    {name : String} (listed : name ∈ names) :
    total count (node.eraseAll names) + share count node name ≤ total count node := by
  unfold eraseAll
  induction names generalizing node with
  | nil => cases listed
  | cons first rest ih =>
    have erased := @total_erase count node distinct first
    rw [List.foldl_cons]
    by_cases same : first = name
    · subst same
      have later := @total_eraseAll_le count _ (nodup_erase distinct first) rest
      unfold eraseAll at later
      omega
    · rcases List.mem_cons.mp listed with here | listed
      · exact absurd here.symm same
      · have later := ih (nodup_erase distinct first) listed
        rw [share, get?_erase_ne _ same, ← share] at later
        omega

end Json

end SchemaPack
