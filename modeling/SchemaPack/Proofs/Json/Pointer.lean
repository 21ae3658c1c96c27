import SchemaPack.Json.Pointer
import SchemaPack.Proofs.Json.Members
import SchemaPack.Proofs.Text

namespace SchemaPack

theorem isDigit_iff {c : Char} : isDigit c = true ↔ 48 ≤ c.toNat ∧ c.toNat ≤ 57 := by
  simp only [isDigit, Bool.and_eq_true, decide_eq_true_eq]
  rfl

theorem digitChar_digitValue {c : Char} (digit : isDigit c = true) :
    Nat.digitChar (digitValue c) = c := by
  rw [isDigit_iff] at digit
  apply Char.toNat_inj.mp
  rw [digitValue, Nat.toNat_digitChar_of_lt_ten (by omega)]
  omega

theorem digitValue_lt {c : Char} (digit : isDigit c = true) : digitValue c < 10 := by
  rw [isDigit_iff] at digit
  unfold digitValue
  omega

theorem toDigits_foldl {cs : List Char} (digits : ∀ c ∈ cs, isDigit c = true) {start : Nat}
    (positive : 0 < start) :
    Nat.toDigits 10 ((cs.map digitValue).foldl (fun n digit => n * 10 + digit) start) =
      Nat.toDigits 10 start ++ cs := by
  induction cs generalizing start with
  | nil => simp
  | cons c rest ih =>
    rw [List.forall_mem_cons] at digits
    have small := digitValue_lt digits.1
    have next : 0 < start * 10 + digitValue c := by omega
    have step := Nat.toDigits_append_toDigits (by decide : 1 < 10) positive small
    rw [Nat.toDigits_of_lt_base small, digitChar_digitValue digits.1, Nat.mul_comm] at step
    rw [List.map_cons, List.foldl_cons, ih digits.2 next, ← step, List.append_assoc]
    rfl

theorem toDigits_ofDigits {c : Char} {rest : List Char}
    (digits : ∀ digit ∈ c :: rest, isDigit digit = true) (leading : c = '0' → rest = []) :
    Nat.toDigits 10 (ofDigits ((c :: rest).map digitValue)) = c :: rest := by
  rw [List.forall_mem_cons] at digits
  have alone : Nat.toDigits 10 (digitValue c) = [c] := by
    rw [Nat.toDigits_of_lt_base (digitValue_lt digits.1), digitChar_digitValue digits.1]
  rw [ofDigits, List.map_cons, List.foldl_cons, Nat.zero_mul, Nat.zero_add]
  by_cases zero : c = '0'
  · rw [leading zero]
    exact alone
  · have positive : 0 < digitValue c := by
      have other : c.toNat ≠ 48 := mt (@Char.toNat_inj c '0').mp zero
      have bound := isDigit_iff.mp digits.1
      unfold digitValue
      omega
    rw [toDigits_foldl digits.2 positive, alone]
    rfl

theorem head?_toDigits {n : Nat} (positive : 0 < n) : (Nat.toDigits 10 n).head? ≠ some '0' := by
  induction n using Nat.strongRecOn with
  | ind n ih =>
    by_cases small : n < 10
    · rw [Nat.toDigits_of_lt_base small, List.head?_cons]
      intro same
      have digit := congrArg Char.toNat (Option.some.inj same)
      rw [Nat.toNat_digitChar_of_lt_ten small] at digit
      have zero : '0'.toNat = 48 := rfl
      omega
    · have shorter := ih (n / 10) (by omega) (by omega)
      obtain ⟨c, rest, shape⟩ := List.exists_cons_of_ne_nil (@Nat.toDigits_ne_nil (n / 10) 10)
      rw [Nat.toDigits_of_base_le (by decide) (by omega), shape, List.cons_append]
      rwa [shape] at shorter

theorem natural?_toString (n : Nat) : natural? (toString n) = some n := by
  have digits : ∀ c ∈ Nat.toDigits 10 n, isDigit c = true := by
    intro c listed
    have digit := Nat.isDigit_of_mem_toDigits (by decide) (by decide) listed
    exact digit
  have value : ofDigits ((Nat.toDigits 10 n).map digitValue) = n := by
    rw [ofDigits, List.foldl_map]
    have read := @Nat.ofDigitChars_ten_toDigits n
    rw [Nat.ofDigitChars_eq_foldl, show '0'.toNat = 48 from rfl] at read
    simpa only [digitValue, Nat.mul_comm] using read
  rw [natural?, Nat.toString_eq_repr, Nat.toList_repr, value, if_neg]
  simpa [Nat.toDigits_ne_nil] using digits

theorem toString_inj {n m : Nat} (same : toString n = toString m) : n = m := by
  apply Option.some.inj
  rw [← natural?_toString n, same, natural?_toString]

theorem notMem_toString {c : Char} (other : isDigit c = false) (n : Nat) :
    c ∉ (toString n).toList := by
  rw [Nat.toString_eq_repr, Nat.toList_repr]
  intro listed
  have digit : isDigit c = true := Nat.isDigit_of_mem_toDigits (by decide) (by decide) listed
  rw [other] at digit
  cases digit

namespace Pointer

theorem notMem_escape (cs : List Char) : '/' ∉ escape cs := by
  fun_induction escape cs with
  | case1 => exact List.not_mem_nil
  | case2 rest ih => simpa using ih
  | case3 rest ih => simpa using ih
  | case4 c rest _ slash ih =>
    rw [List.mem_cons, not_or]
    exact ⟨fun same => slash same.symm, ih⟩

theorem unescape_escape (cs : List Char) : unescape (escape cs) = cs := by
  fun_induction escape cs with
  | case1 => rfl
  | case2 rest ih => rw [unescape, ih]
  | case3 rest ih => rw [unescape, ih]
  | case4 c rest tilde _ ih =>
    rw [unescape, ih]
    · exact fun _ same => (tilde same).elim
    · exact fun _ same => (tilde same).elim

/-- A pointer is read off its text, whatever characters its tokens have. -/
theorem ofText?_text (p : Pointer) : ofText? p.text = some p := by
  obtain ⟨tokens⟩ := p
  cases tokens with
  | nil => rfl
  | cons first others =>
    have parts := splitAt_flatMap (fun token : String => escape token.toList) first others
      fun token => notMem_escape _
    unfold ofText? text
    rw [String.toList_ofList, List.flatMap_cons, List.cons_append]
    simp [parts, Function.comp_def, unescape_escape]

theorem index?_toString (n : Nat) : index? (toString n) = some n := by
  unfold index?
  split
  · rename_i c rest leading
    rw [Nat.toString_eq_repr, Nat.toList_repr] at leading
    rcases Nat.eq_zero_or_pos n with rfl | positive
    · cases leading
    · have head := head?_toDigits positive
      rw [leading] at head
      cases head rfl
  · exact natural?_toString n

theorem eq_toString_of_index? {token : String} {index : Nat} (found : index? token = some index) :
    token = toString index := by
  rw [← String.toList_inj, Nat.toString_eq_repr, Nat.toList_repr]
  unfold index? at found
  split at found
  · cases found
  · rename_i leading
    simp only [natural?, Option.ite_none_left_eq_some, not_or, Bool.not_eq_true,
      Classical.not_not, List.all_eq_true, Option.some.injEq] at found
    obtain ⟨⟨some_digit, digits⟩, rfl⟩ := found
    obtain ⟨c, rest, shape⟩ := List.exists_cons_of_ne_nil (List.isEmpty_eq_false_iff.mp some_digit)
    rw [shape] at digits leading ⊢
    refine (toDigits_ofDigits digits ?_).symm
    rintro rfl
    cases rest with
    | nil => rfl
    | cons second others => exact (leading second others rfl).elim

theorem select?_cons (token : String) (rest : List String) (node : Json) :
    (Pointer.mk (token :: rest)).select? node =
      (step? node token).bind (Pointer.mk rest).select? := by
  rw [select?, List.foldlM_cons]
  rfl

theorem step?_eq_get? {token : String} (keyword : index? token = none) (node : Json) :
    step? node token = node.get? token := by
  cases node with
  | array items => simp [step?, keyword, Json.get?, Json.members?]
  | object | null | bool | number | string => rfl

/-- What a path selects is still there, though it may be another value. -/
def Survives (path : List String) (node result : Json) : Prop :=
  ((mk path).select? node).isSome = true → ((mk path).select? result).isSome = true

theorem Survives.nil (node result : Json) : Survives [] node result := fun _ => rfl

/-- A path survives if its first step leads to where the rest of it survives. -/
theorem Survives.cons {token : String} {path : List String} {node result : Json}
    (steps : ∀ value, step? node token = some value →
      ∃ other, step? result token = some other ∧ Survives path value other) :
    Survives (token :: path) node result := by
  intro selected
  rw [select?_cons] at selected ⊢
  cases found : step? node token with
  | none =>
    rw [found] at selected
    cases selected
  | some value =>
    rw [found] at selected
    obtain ⟨other, there, survives⟩ := steps value found
    rw [there]
    exact survives selected

end Pointer

end SchemaPack
