import SchemaPack.CommandLine.Run
import SchemaPack.Proofs.Files.Tree
import SchemaPack.Proofs.Json.Pointer

namespace SchemaPack

namespace Document

def stem (document : Document) : String := document.source.stem?.getD "schema"

def mark (document : Document) : String :=
  match document.index with
  | some index => "-" ++ toString index
  | none => ""

/-- The stem of a document without a number ends as if it were the number of another. -/
def Mimics (a b : Document) : Prop :=
  a.index = none ∧ ∃ index, b.index = some index ∧ a.stem = b.stem ++ "-" ++ toString index

/-- Two documents are to be written to the same file. -/
def Collides (a b : Document) : Prop :=
  (a.stem = b.stem ∧ a.index = b.index) ∨ a.Mimics b ∨ b.Mimics a

variable {a b document : Document}

theorem fileName_eq (document : Document) :
    document.fileName = document.stem ++ document.mark ++ ".json" := by
  unfold fileName mark
  cases document.index with
  | none => rw [String.append_empty]; rfl
  | some index => rw [← String.append_assoc]; rfl

/-- A number behind a stem can be told from the stem, even if the stem holds such marks itself. -/
theorem marked_inj {stem other : String} {n m : Nat}
    (same : stem ++ "-" ++ toString n = other ++ "-" ++ toString m) : stem = other ∧ n = m := by
  have apart : ∀ n : Nat, '-' ∉ (toString n).toList := notMem_toString rfl
  have hyphen : "-" = String.singleton '-' := rfl
  have parts := congrArg (splitText '-') same
  rw [hyphen, splitText_append _ (apart n), splitText_append _ (apart m)] at parts
  have numbers := toString_inj (List.cons.inj (List.append_inj' parts rfl).2).1
  rw [numbers, String.append_left_inj, String.append_left_inj] at same
  exact ⟨same, numbers⟩

theorem fileName_eq_iff : a.fileName = b.fileName ↔ a.Collides b := by
  rw [fileName_eq, fileName_eq, String.append_left_inj]
  unfold Collides Mimics mark
  rcases number : a.index with _ | n <;> rcases other : b.index with _ | m
  · simp
  · simp [← String.append_assoc]
  · simp [← String.append_assoc, eq_comm]
  · simp only [← String.append_assoc]
    constructor
    · intro same
      obtain ⟨stems, numbers⟩ := marked_inj same
      exact .inl ⟨stems, congrArg some numbers⟩
    · rintro (⟨stems, numbers⟩ | ⟨missing, -⟩ | ⟨missing, -⟩)
      · rw [stems, Option.some.inj numbers]
      · cases missing
      · cases missing

theorem isPlain_fileName (document : Document) : Path.IsPlain document.fileName := by
  have last : document.fileName.toList.getLast? = some 'n' := by
    rw [fileName_eq, String.toList_append, List.getLast?_append]
    rfl
  have other (name : String) (wrong : name.toList.getLast? ≠ some 'n') :
      document.fileName ≠ name := by
    rintro rfl
    exact wrong last
  constructor
  · rw [fileName_eq, String.toList_append, String.toList_append]
    simp only [List.mem_append, not_or]
    refine ⟨⟨?_, ?_⟩, by decide⟩
    · unfold stem
      cases known : document.source.stem? with
      | none => decide
      | some stem => exact Path.notMem_stem? known
    · unfold mark
      cases document.index with
      | none => decide
      | some index =>
        rw [String.toList_append]
        simp only [List.mem_append, not_or]
        exact ⟨by decide, notMem_toString rfl index⟩
  · have busy : ¬Path.isIdle document.fileName = true := by
      unfold Path.isIdle
      simp [other "" (by decide), other "." (by decide)]
    rw [Path.step?, if_neg busy, if_neg (other _ (by decide))]

theorem mem_ofValues {source : Path} {values : List Json}
    (member : document ∈ ofValues source values) :
    (∃ value, values = [value] ∧ document = ⟨source, none, value⟩) ∨
      ∃ index value, values[index]? = some value ∧ document = ⟨source, some index, value⟩ := by
  unfold ofValues at member
  split at member
  · rename_i value
    exact .inl ⟨value, rfl, List.mem_singleton.mp member⟩
  · obtain ⟨⟨value, index⟩, listed, rfl⟩ := List.mem_map.mp member
    exact .inr ⟨index, value, List.mem_zipIdx_iff_getElem?.mp listed, rfl⟩

theorem source_of_mem_ofValues {source : Path} {values : List Json}
    (member : document ∈ ofValues source values) : document.source = source := by
  rcases mem_ofValues member with ⟨_, -, rfl⟩ | ⟨_, _, -, rfl⟩ <;> rfl

theorem index_injective {source : Path} {values : List Json} (first : a ∈ ofValues source values)
    (second : b ∈ ofValues source values) (same : a.index = b.index) : a = b := by
  rcases mem_ofValues first with ⟨_, alone, rfl⟩ | ⟨_, _, found, rfl⟩
  · rcases mem_ofValues second with ⟨_, aloneToo, rfl⟩ | ⟨_, _, -, rfl⟩
    · rw [alone] at aloneToo
      rw [(List.cons.inj aloneToo).1]
    · cases same
  · rcases mem_ofValues second with ⟨_, -, rfl⟩ | ⟨_, _, foundToo, rfl⟩
    · cases same
    · cases same
      rw [found] at foundToo
      rw [Option.some.inj foundToo]

theorem eq_of_fileName_eq {source : Path} {values : List Json}
    (first : a ∈ ofValues source values) (second : b ∈ ofValues source values)
    (same : a.fileName = b.fileName) : a = b := by
  have stems : a.stem = b.stem := by
    rw [stem, stem, source_of_mem_ofValues first, source_of_mem_ofValues second]
  have longer {stem : String} {n : Nat} : stem ≠ stem ++ "-" ++ toString n := by
    intro shape
    have lengths := congrArg String.length shape
    rw [String.length_append, String.length_append, show "-".length = 1 from rfl] at lengths
    omega
  rcases fileName_eq_iff.mp same with ⟨-, numbers⟩ | ⟨-, _, -, shape⟩ | ⟨-, _, -, shape⟩
  · exact index_injective first second numbers
  · rw [stems] at shape
    exact absurd shape longer
  · rw [stems] at shape
    exact absurd shape longer

end Document

namespace Settings

variable {settings : Settings} {tree : Tree} {documents : List Document} {a b document : Document}

theorem loadSource_ofValues {path : Path} (loaded : settings.loadSource tree path = .ok documents) :
    ∃ values, documents = Document.ofValues path values := by
  obtain ⟨source, -, loaded⟩ := bind_eq_ok.mp loaded
  obtain ⟨values, -, loaded⟩ := bind_eq_ok.mp loaded
  obtain ⟨selected, -, loaded⟩ := bind_eq_ok.mp loaded
  exact ⟨selected, (Except.ok.inj loaded).symm⟩

theorem mem_loadDocuments (loaded : settings.loadDocuments tree = .ok documents)
    (member : document ∈ documents) : ∃ siblings,
      settings.loadSource tree document.source = .ok siblings ∧ document ∈ siblings := by
  obtain ⟨paths, -, loaded⟩ := bind_eq_ok.mp loaded
  obtain ⟨groups, mapped, loaded⟩ := bind_eq_ok.mp loaded
  rw [← Except.ok.inj loaded] at member
  obtain ⟨siblings, listed, among⟩ := List.mem_flatten.mp member
  obtain ⟨path, -, ran⟩ := exists_of_mapM_eq_ok mapped listed
  obtain ⟨values, rfl⟩ := loadSource_ofValues ran
  rw [← Document.source_of_mem_ofValues among] at ran
  exact ⟨_, ran, Document.source_of_mem_ofValues among ▸ among⟩

theorem fileName_eq_iff_loaded (loaded : settings.loadDocuments tree = .ok documents)
    (first : a ∈ documents) (second : b ∈ documents) :
    a.fileName = b.fileName ↔ a = b ∨ a.source ≠ b.source ∧ a.Collides b := by
  constructor
  · intro same
    by_cases sources : a.source = b.source
    · obtain ⟨siblings, ran, among⟩ := mem_loadDocuments loaded first
      obtain ⟨others, ranToo, amongToo⟩ := mem_loadDocuments loaded second
      rw [← sources, ran] at ranToo
      cases ranToo
      obtain ⟨values, rfl⟩ := loadSource_ofValues ran
      exact .inl (Document.eq_of_fileName_eq among amongToo same)
    · exact .inr ⟨sources, Document.fileName_eq_iff.mp same⟩
  · rintro (rfl | ⟨-, collides⟩)
    · rfl
    · exact Document.fileName_eq_iff.mpr collides

end Settings

end SchemaPack
