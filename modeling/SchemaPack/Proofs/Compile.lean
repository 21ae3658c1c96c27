import SchemaPack.Compile
import SchemaPack.Proofs.Canonical.Idempotence
import SchemaPack.Proofs.Plan.Soundness

namespace SchemaPack

theorem Json.Meets.alike {measure : Number → Int} {among : List Assertion} {value : Json}
    {vocabularies : Vocabularies} {members results : Members}
    (meets : (Json.object members).Meets measure among value)
    (alike : Alike vocabularies members results) :
    (Json.object results).Meets measure among value := by
  refine meets.of_get? fun assertion _ => .inl ?_
  have plain : assertion.name ∈ Keyword.plain := by cases assertion <;> decide
  exact (alike.get? plain).symm

theorem canonicalRules_stable_allows (resolver : Resolver) (inherited : String)
    (pointer : Pointer) (value : Json) :
    Fresh.Stable canonicalRules resolver inherited pointer fun node => node.Allows value where
  apply := fun rule listed node context _ condition allows =>
    canonicalRules_loosen rule listed node context value condition allows
  inside := fun _ _ _ _ alike allows => allows.alike alike

theorem canonicalize_allows {resolver : Resolver} {default : Option String}
    {document result value : Json} {limit : Nat} {dialect : String}
    (root : Dialect.ofDocument document default = .ok dialect)
    (h : (canonicalize resolver default document limit).result = .ok result)
    (allows : document.Allows value) : result.Allows value := by
  have stable := canonicalRules_stable_allows (Encoding.resolver resolver) dialect .root value
  have holds := saturate_stable root stable h allows
  exact holds

def Planned (declared : Option String) (value node : Json) : Prop :=
  (∃ encoding : Encoding, node = encoding.document ∧ encoding.Admits Number.units value) ∨
    (Dialect.declared? node = declared ∧ node.Allows value)

theorem planRules_stable (resolver : Resolver) (inherited : String) (pointer : Pointer)
    (declared : Option String) (value : Json) :
    Fresh.Stable planRules resolver inherited pointer (Planned declared value) where
  apply := by
    intro rule listed node context here condition planned
    obtain ⟨plannable, encoding, transformed, admits⟩ :=
      planRules_plan rule listed node context condition
    -- A rule that applies finds a schema still, since encodings are in no schema dialect.
    rcases planned with ⟨earlier, rfl, _⟩ | ⟨_, allows⟩
    · rw [not_isPlannable_document (Context.of_dialect here)] at plannable
      cases plannable
    · exact .inl ⟨encoding, transformed, admits value allows⟩
  inside := by
    intro members results context _ alike planned
    rcases planned with ⟨encoding, same, admits⟩ | ⟨dialect, allows⟩
    · exact .inl ⟨encoding, Encoding.eq_document_of_alike same alike, admits⟩
    · exact .inr ⟨alike.declared?.trans dialect, allows.alike alike⟩

theorem plan_admits {resolver : Resolver} {default : Option String} {document result value : Json}
    {limit : Nat} (root : Dialect.ofDocument document default = .ok Dialect.draft202012)
    (h : (plan resolver default document limit).result = .ok result)
    (allows : document.Allows value) :
    ∃ encoding : Encoding, result = encoding.document ∧ encoding.Admits Number.units value := by
  rw [plan, root, Traced.ofExcept_ok_bind] at h
  obtain ⟨base, _, h⟩ := Traced.bind_result_ok h
  split at h
  · cases h
  · obtain ⟨planned, run, h⟩ := Traced.bind_result_ok h
    have stable := planRules_stable (Encoding.resolver resolver) Dialect.draft202012 .root
      (Dialect.declared? document) value
    have holds := saturate_stable root stable run (.inr ⟨rfl, allows⟩)
    obtain ⟨dialect, given, h⟩ := Traced.ofExcept_bind_ok h
    split at h
    -- A root that is still a schema has kept its dialect, so it is not taken for an encoding.
    · rename_i finished
      cases h
      rcases holds with done | ⟨same, _⟩
      · exact done
      · rw [Dialect.ofDocument, same] at given
        rw [Dialect.ofDocument] at root
        rw [root] at given
        cases given
        cases finished
    · obtain ⟨_, _, h⟩ := Traced.bind_result_ok h
      cases h
      exact ⟨.anyPackedTypeTagBytePrefix, rfl, trivial⟩

/-- No valid value is lost by compilation but to its likeness: the encoding writes every value that
    satisfies the assertions at the root of a schema, as far as doubles tell values apart, and the
    value itself unless it lists only values that doubles do not tell from it. -/
theorem compile_admits (resolver : Resolver) (default : Option String)
    (document result value : Json) (limit : Nat)
    (root : Dialect.ofDocument document default = .ok Dialect.draft202012)
    (compiled : (compile resolver default document limit).result = .ok result)
    (meets : document.Meets Number.exact Assertion.all value) :
    ∃ encoding : Encoding, result = encoding.document ∧
      encoding.Admits Number.units value ∧
        (encoding.Admits Number.exact value ↔ ∀ choice ∈ encoding.listed,
          value.SameBy Number.units choice →
            ∃ other ∈ encoding.listed, value.SameBy Number.exact other) := by
  obtain ⟨canonical, first, second⟩ := Traced.bind_result_ok compiled
  have allows : document.Allows value := meets.units.mono fun assertion _ => assertion.mem_all
  have same := canonicalize_ofDocument first
  obtain ⟨encoding, shape, admits⟩ :=
    plan_admits (same.trans root) second (canonicalize_allows root first allows)
  exact ⟨encoding, shape, admits, Encoding.admits_exact_iff admits⟩

theorem compile_admits_multiple :
    let document := Json.object [("type", .string "integer"),
      ("exclusiveMinimum", .number (.integer 0)), ("multipleOf", .number (.integer (-3)))]
    let result := (Encoding.floorMultipleEnumVarint 1 3).document
    let value := Json.number (.integer 6)
    Dialect.ofDocument document (some Dialect.draft202012) = .ok Dialect.draft202012 ∧
      (compile Dialect.official (some Dialect.draft202012) document 20).result = .ok result ∧
        document.Meets Number.exact Assertion.all value ∧
          ∃ encoding : Encoding, result = encoding.document ∧
            encoding.Admits Number.units value ∧
              (encoding.Admits Number.exact value ↔ ∀ choice ∈ encoding.listed,
                value.SameBy Number.units choice →
                  ∃ other ∈ encoding.listed, value.SameBy Number.exact other) := by
  intro document result value
  have root : Dialect.ofDocument document (some Dialect.draft202012) =
      .ok Dialect.draft202012 := by decide +kernel
  have compiled : (compile Dialect.official (some Dialect.draft202012) document 20).result =
      .ok result := by decide +kernel
  have meets : document.Meets Number.exact Assertion.all value := by
    intro assertion _ content found
    cases assertion with
    | type =>
      cases found
      intro types named
      cases named
      exact ⟨.integer, List.mem_singleton_self _, rfl⟩
    | exclusiveMinimum =>
      cases found
      intro bound number same same_number
      cases same
      rw [← Json.number.inj same_number]
      exact (by decide +kernel : (0 : Int) * Binary64.one < 6 * Binary64.one)
    | multipleOf =>
      cases found
      intro step number same same_number _
      cases same
      rw [← Json.number.inj same_number]
      exact Int.mul_dvd_mul_right _ (by decide : (-3 : Int) ∣ 6)
    | enum | const | minimum | maximum | exclusiveMaximum | minLength | maxLength | minItems
    | maxItems | minProperties | maxProperties | required | dependentRequired => cases found
  exact ⟨root, compiled, meets, compile_admits _ _ document result value 20 root compiled meets⟩

/-- Of two choices that doubles do not tell apart one is lost, though both are valid. -/
theorem compile_drops_choice :
    let kept := Json.number (.real ⟨false, 4503599627370496, 1075, by decide⟩)
    let lost := Json.number (.integer 9007199254740993)
    let document := Json.object [("enum", .array [kept, lost])]
    let result := (Encoding.constNone kept).document
    Dialect.ofDocument document (some Dialect.draft202012) = .ok Dialect.draft202012 ∧
      (compile Dialect.official (some Dialect.draft202012) document 20).result = .ok result ∧
        document.Meets Number.exact Assertion.all lost ∧
          ¬ ∃ encoding : Encoding, result = encoding.document ∧
            encoding.Admits Number.exact lost := by
  intro kept lost document result
  refine ⟨by decide +kernel, by decide +kernel, ?_, ?_⟩
  · intro assertion _ content found
    cases assertion with
    | enum =>
      cases found
      intro choices array
      cases array
      exact ⟨lost, List.mem_cons_of_mem _ List.mem_cons_self, rfl⟩
    | type | const | minimum | maximum | exclusiveMinimum | exclusiveMaximum | multipleOf
    | minLength | maxLength | minItems | maxItems | minProperties | maxProperties | required
    | dependentRequired => cases found
  · rintro ⟨encoding, shape, admits⟩
    rw [Encoding.eq_constNone shape] at admits
    have same := Likeness.number.inj admits
    exact absurd same (by decide +kernel)

end SchemaPack
