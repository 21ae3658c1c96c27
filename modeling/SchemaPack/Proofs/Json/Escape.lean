import SchemaPack.Proofs.Json.Pointer

namespace SchemaPack

/-- Puts a text in the place of a pattern wherever the pattern stands, from the left and without
    overlaps. The first character of the pattern is given apart from the others. -/
def replaceAll (first : Char) (others replacement : List Char) : List Char → List Char
  | [] => []
  | c :: rest =>
    if c = first ∧ others <+: rest then
      replacement ++ replaceAll first others replacement (rest.drop others.length)
    else c :: replaceAll first others replacement rest
termination_by cs => cs.length
decreasing_by
  · rw [List.length_drop, List.length_cons]
    omega
  · exact Nat.lt_succ_self _

section Replace

variable {first c : Char} {others replacement : List Char}

theorem replaceAll_nil : replaceAll first others replacement [] = [] := by rw [replaceAll]

theorem replaceAll_found {cs rest : List Char} (found : cs = others ++ rest) :
    replaceAll first others replacement (first :: cs) =
      replacement ++ replaceAll first others replacement rest := by
  rw [replaceAll, found, if_pos ⟨rfl, List.prefix_append _ _⟩, List.drop_left]

theorem replaceAll_other (other : c ≠ first) (rest : List Char) :
    replaceAll first others replacement (c :: rest) =
      c :: replaceAll first others replacement rest := by
  rw [replaceAll, if_neg fun found => other found.1]

theorem replaceAll_unlike {rest : List Char} (unlike : ¬others <+: rest) :
    replaceAll first others replacement (first :: rest) =
      first :: replaceAll first others replacement rest := by
  rw [replaceAll, if_neg fun found => unlike found.2]

theorem prefix_of_replaceAll {d : Char} {more cs : List Char} (other : d ≠ c)
    (leads : [c] <+: replaceAll first others (d :: more) cs) : [c] <+: cs := by
  cases cs with
  | nil =>
    rw [replaceAll_nil] at leads
    exact leads
  | cons e rest =>
    rw [replaceAll] at leads
    split at leads
    · rw [List.cons_append, List.cons_prefix_cons] at leads
      exact absurd leads.1.symm other
    · rw [List.cons_prefix_cons] at leads ⊢
      exact ⟨leads.1, List.nil_prefix⟩

end Replace

namespace Pointer

/-- Tildes come first, so that those put in for slashes stay what they are. -/
def escapeInTurn (token : List Char) : List Char :=
  replaceAll '/' [] ['~', '1'] (replaceAll '~' [] ['~', '0'] token)

/-- Slashes come first, so that a tilde put in never makes one. -/
def unescapeInTurn (token : List Char) : List Char :=
  replaceAll '~' ['0'] ['~'] (replaceAll '~' ['1'] ['/'] token)

theorem escape_eq (cs : List Char) : escape cs = escapeInTurn cs := by
  unfold escapeInTurn
  fun_induction escape cs with
  | case1 => rw [replaceAll_nil, replaceAll_nil]
  | case2 rest ih =>
    rw [replaceAll_found (show rest = [] ++ rest from rfl), List.cons_append, List.cons_append,
      List.nil_append, replaceAll_other (by decide), replaceAll_other (by decide), ih]
  | case3 rest ih =>
    rw [replaceAll_other (by decide), replaceAll_found (List.nil_append _).symm, ih]
    rfl
  | case4 c rest tilde slash ih =>
    rw [replaceAll_other tilde, replaceAll_other slash, ih]

theorem unescape_eq (cs : List Char) : unescape cs = unescapeInTurn cs := by
  unfold unescapeInTurn
  fun_induction unescape cs with
  | case1 => rw [replaceAll_nil, replaceAll_nil]
  | case2 rest ih =>
    rw [replaceAll_found (show '1' :: rest = ['1'] ++ rest from rfl), List.singleton_append,
      replaceAll_other (by decide), ih]
  | case3 rest ih =>
    have unlike : ¬['1'] <+: '0' :: rest := by
      rw [List.cons_prefix_cons]
      exact fun same => absurd same.1 (by decide)
    rw [replaceAll_unlike unlike, replaceAll_other (by decide : '0' ≠ '~'),
      replaceAll_found (List.singleton_append).symm, List.singleton_append, ih]
  | case4 c rest slash tilde ih =>
    by_cases escaped : c = '~'
    · subst escaped
      have unlike : ¬['1'] <+: rest := fun ⟨more, shape⟩ => slash more rfl shape.symm
      -- A zero after the tilde would have to stand there before slashes were put in.
      have other : ¬['0'] <+: replaceAll '~' ['1'] ['/'] rest := by
        intro leads
        obtain ⟨more, shape⟩ := prefix_of_replaceAll (by decide) leads
        exact tilde more rfl shape.symm
      rw [replaceAll_unlike unlike, replaceAll_unlike other, ih]
    · rw [replaceAll_other escaped, replaceAll_other escaped, ih]

/-- What stands after each slash, with slashes and tildes put back. -/
def tokensOf (text : String) : List String :=
  (splitAt '/' text.toList).tail.map fun part => String.ofList (unescapeInTurn part)

theorem tokensOf_of_ofText? {text : String} {p : Pointer} (read : ofText? text = some p) :
    tokensOf text = p.tokens := by
  unfold ofText? at read
  split at read
  · rename_i empty
    cases read
    rw [tokensOf, empty]
    rfl
  · rename_i rest leading
    cases read
    rw [tokensOf, leading, splitAt, if_pos rfl, List.tail_cons]
    simp only [unescape_eq]
  · cases read

theorem tokensOf_text (p : Pointer) : tokensOf p.text = p.tokens :=
  tokensOf_of_ofText? (ofText?_text p)

theorem text_eq (p : Pointer) :
    p.text = String.ofList (p.tokens.flatMap fun token => '/' :: escapeInTurn token.toList) := by
  simp only [text, escape_eq]

theorem text_injective : Function.Injective text := by
  intro p q same
  apply Option.some.inj
  rw [← ofText?_text p, same, ofText?_text]

end Pointer

end SchemaPack
