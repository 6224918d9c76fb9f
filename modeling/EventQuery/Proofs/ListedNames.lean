import EventQuery.Proofs.SchemaNames

/-!
Names that a schema lists, looked up in it. A name is looked up without the white space at its
ends, but a relation or a field may have white space at the ends of its name. So a listed name
leads back to its path exactly if it has none there, and all listed names do so if the name of
the root does not start with white space and no name in the schema ends with it.
-/
namespace EventQuery

open Reading (nameWords nameWords_append nameWords_intercalate nameWords_single
  intercalate_nameWords)

/-! ### White space at the ends of a text -/

namespace Text.Blank

def StartsBare (text : String) : Prop := ∀ c ∈ text.toList.head?, isBlank c = false

def EndsBare (text : String) : Prop := ∀ c ∈ text.toList.getLast?, isBlank c = false

theorem trimmed_eq_self_iff {text : String} :
    trimmed text = text ↔ StartsBare text ∧ EndsBare text := by
  rw [StartsBare, EndsBare, ← trim_eq_self_iff, trimmed, ← String.toList_inj, String.toList_ofList]

theorem count_point_trimStart (text : List Char) :
    (trimStart text).count '.' = text.count '.' := by
  induction text with
  | nil => rfl
  | cons c rest ih =>
    by_cases blank : isBlank c = true
    · have other : c ≠ '.' := by
        rintro rfl
        exact absurd blank (by decide)
      rw [trimStart, List.dropWhile_cons_of_pos blank, ← trimStart, ih, List.count_cons_of_ne other]
    · rw [trimStart, List.dropWhile_cons_of_neg blank]

/-- Points are no white space. -/
theorem count_point_trimmed (text : String) :
    (trimmed text).toList.count '.' = text.toList.count '.' := by
  rw [trimmed, String.toList_ofList, trim, List.count_reverse, count_point_trimStart,
    List.count_reverse, count_point_trimStart]

theorem startsBare_append {text more : String} (nonempty : text ≠ "") :
    StartsBare (text ++ more) ↔ StartsBare text := by
  rw [StartsBare, StartsBare, String.toList_append,
    List.head?_append_of_ne_nil _ (by simpa using nonempty)]

theorem endsBare_append {text more : String} (nonempty : more ≠ "") :
    EndsBare (text ++ more) ↔ EndsBare more := by
  rw [EndsBare, EndsBare, String.toList_append,
    List.getLast?_append_of_ne_nil _ (by simpa using nonempty)]

end Text.Blank

open Text.Blank

variable {declaration : RelationDeclaration} {schema : Schema} {path : Path} {name : String}

namespace Schema

/-! ### Names that lead back -/

theorem intercalate_append_nameWords {before : List String} (nonempty : before ≠ [])
    (dotless : ∀ word ∈ before, '.' ∉ word.toList) :
    ".".intercalate (before ++ nameWords name) = ".".intercalate before ++ "." ++ name := by
  calc ".".intercalate (before ++ nameWords name)
      = ".".intercalate (nameWords (".".intercalate before ++ "." ++ name)) := by
        rw [nameWords_append, nameWords_intercalate nonempty dotless]
    _ = ".".intercalate before ++ "." ++ name := intercalate_nameWords _

/-- The name resolves, and to a path of that name. -/
def LeadsBack (schema : Schema) (name : String) : Prop :=
  ∃ path, schema.resolve name = .ok path ∧ path.dotted = name

/-- What a name means that is not absolute has more names in front. -/
theorem exists_dotted_of_mem_meanings (built : ofDeclaration declaration = .ok schema)
    (meant : path ∈ schema.meanings name) : ∃ front, path.dotted = front ++ "." ++ name := by
  have deeper : path ∈ schema.paths ∧
      ∃ before, before ≠ [] ∧ path.segments = before ++ nameWords name := by
    unfold meanings at meant
    split_ifs at meant
    · obtain ⟨listed, shape, -⟩ := mem_rootFields.1 meant
      have dotless : '.' ∉ name.toList := dotless_of_mem built listed (by simp [shape])
      exact ⟨listed, _, segments_ne_nil built (root_mem built), by rw [shape, nameWords_single dotless]⟩
    · obtain ⟨listed, ⟨before, shape⟩, other, -⟩ := mem_endings.1 meant
      refine ⟨listed, before, ?_, shape.symm⟩
      rintro rfl
      exact other shape
  obtain ⟨listed, before, nonempty, shape⟩ := deeper
  refine ⟨".".intercalate before, ?_⟩
  rw [Path.dotted, shape]
  exact intercalate_append_nameWords nonempty fun word member =>
    dotless_of_mem built listed (by rw [shape]; exact List.mem_append_left _ member)

theorem leadsBack_of_trimmed (built : ofDeclaration declaration = .ok schema)
    (known : name ∈ schema.knownNames) (bare : trimmed name = name) : schema.LeadsBack name := by
  obtain ⟨path, listed, same⟩ := List.mem_map.1 known
  have found := (lookup?_eq_some built).2 ⟨listed, same⟩
  exact ⟨path, by simp only [resolve, bare, found], same⟩

/-- What is found for a trimmed name has the trimmed name, or a name with more points. -/
theorem trimmed_of_leadsBack (built : ofDeclaration declaration = .ok schema)
    (leads : schema.LeadsBack name) : trimmed name = name := by
  obtain ⟨path, resolves, same⟩ := leads
  cases found : schema.lookup? (trimmed name) with
  | some absolute =>
    simp only [resolve, found, Except.ok.injEq] at resolves
    rw [← ((lookup?_eq_some built).1 found).2, resolves, same]
  | none =>
    have answer := isAnswer_of_lookup?_eq_none built found
    have meant : path ∈ schema.meanings (trimmed name) := by
      rw [resolves, IsAnswer] at answer
      split at answer
      · cases answer
      · rename_i single
        rw [single, Except.ok.inj answer]
        exact List.mem_singleton_self _
      · obtain ⟨names, ambiguous, -⟩ := answer
        cases ambiguous
    obtain ⟨front, longer⟩ := exists_dotted_of_mem_meanings built meant
    have points := congrArg (fun text => text.toList.count '.') longer
    simp only [same, String.toList_append, List.count_append, count_point_trimmed] at points
    have point : ".".toList.count '.' = 1 := rfl
    omega

/-! ### All names of a schema -/

theorem startsBare_dotted (built : ofDeclaration declaration = .ok schema)
    (listed : path ∈ schema.paths) : StartsBare path.dotted ↔ StartsBare declaration.name := by
  obtain ⟨accepted, rfl⟩ := ofDeclaration_eq_ok.1 built
  obtain ⟨others, shape⟩ := RelationDeclaration.prefix_of_listing listed
  have named := (RelationDeclaration.isMemberName_of_listing accepted listed).2
    declaration.name (by simp [← shape])
  rw [Path.dotted, ← shape, List.nil_append, List.singleton_append]
  cases others with
  | nil => rw [String.intercalate_singleton]
  | cons second others =>
    rw [String.intercalate_cons_cons, String.append_assoc, startsBare_append named.1]

theorem endsBare_dotted (built : ofDeclaration declaration = .ok schema)
    (listed : path ∈ schema.paths) : EndsBare path.dotted ↔ EndsBare path.name := by
  obtain ⟨before, last, shape⟩ :=
    (List.eq_nil_or_concat path.segments).resolve_left (segments_ne_nil built listed)
  rw [List.concat_eq_append] at shape
  have named : path.name = last := by rw [Path.name, shape, List.getLastD_concat]
  have nonempty : last ≠ "" := by
    obtain ⟨accepted, rfl⟩ := ofDeclaration_eq_ok.1 built
    exact ((RelationDeclaration.isMemberName_of_listing accepted listed).2 last (by simp [shape])).1
  have dotless (word : String) (member : word ∈ before ++ [last]) : '.' ∉ word.toList :=
    dotless_of_mem built listed (shape ▸ member)
  rw [named, Path.dotted, shape]
  by_cases alone : before = []
  · rw [alone, List.nil_append, String.intercalate_singleton]
  · rw [← nameWords_single (dotless last (by simp)), intercalate_append_nameWords alone
      fun word member => dotless word (List.mem_append_left _ member), endsBare_append nonempty]

/-- A listed name leads back to its path exactly if there is no white space at its ends. All names
of a schema do exactly if the name of the root does not start with white space and no relation or
field has a name that ends with it. -/
theorem leadsBack_knownNames (built : ofDeclaration declaration = .ok schema) :
    (∀ name ∈ schema.knownNames, schema.LeadsBack name ↔ StartsBare name ∧ EndsBare name) ∧
    ((∀ name ∈ schema.knownNames, schema.LeadsBack name) ↔
      StartsBare declaration.name ∧ ∀ path ∈ schema.paths, EndsBare path.name) := by
  have each : ∀ name ∈ schema.knownNames,
      schema.LeadsBack name ↔ StartsBare name ∧ EndsBare name := by
    intro name known
    rw [← trimmed_eq_self_iff]
    exact ⟨trimmed_of_leadsBack built, leadsBack_of_trimmed built known⟩
  refine ⟨each, ?_⟩
  rw [forall₂_congr each, knownNames, List.forall_mem_map]
  have ends : ∀ path ∈ schema.paths, (StartsBare path.dotted ∧ EndsBare path.dotted) ↔
      StartsBare declaration.name ∧ EndsBare path.name := fun path listed =>
    and_congr (startsBare_dotted built listed) (endsBare_dotted built listed)
  rw [forall₂_congr ends]
  constructor
  · intro all
    exact ⟨(all _ (root_mem built)).1, fun path listed => (all path listed).2⟩
  · rintro ⟨starts, all⟩ path listed
    exact ⟨starts, all path listed⟩

/-- Two fields whose names differ in the white space behind them. -/
private def padded : RelationDeclaration :=
  .mk "user" [⟨"id", .long, false, false⟩, ⟨"id ", .string, false, false⟩] []

theorem leadsBack_knownNames_padded :
    ∃ schema, ofDeclaration padded = .ok schema ∧ schema.LeadsBack "user.id" ∧
      ¬ schema.LeadsBack "user.id " ∧ ¬ ∀ name ∈ schema.knownNames, schema.LeadsBack name := by
  have built : ofDeclaration padded = .ok ⟨.relation ["user"], padded.listing []⟩ := rfl
  obtain ⟨each, all⟩ := leadsBack_knownNames built
  have ends : ¬ EndsBare "user.id " := fun bare => absurd (bare ' ' rfl) (by decide)
  have bare : StartsBare "user.id" ∧ EndsBare "user.id" := by
    refine ⟨?_, ?_⟩ <;> rintro c ⟨⟩ <;> decide
  refine ⟨_, built, (each "user.id" (by decide)).2 bare, ?_, ?_⟩
  · exact fun leads => ends ((each "user.id " (by decide)).1 leads).2
  · intro leads
    have field : .field ["user"] "id " ⟨.string, false, false⟩ ∈ padded.listing [] := by decide
    exact absurd ((all.1 leads).2 _ field ' ' rfl) (by decide)

/-- The name of the second field leads to the first one, and the name of a root with white space
behind it leads nowhere. -/
theorem not_leadsBack_padded :
    (∃ schema, ofDeclaration padded = .ok schema ∧ "user.id " ∈ schema.knownNames ∧
      schema.resolve "user.id " = .ok (.field ["user"] "id" ⟨.long, false, false⟩) ∧
      ¬ schema.LeadsBack "user.id ") ∧
    ∃ schema, ofDeclaration (.mk "user " [] []) = .ok schema ∧ "user " ∈ schema.knownNames ∧
      schema.resolve "user " = .error (.unknownPath "user") ∧ ¬ schema.LeadsBack "user " := by
  refine ⟨⟨_, rfl, by decide, rfl, ?_⟩, ⟨_, rfl, by decide, rfl, ?_⟩⟩
  · rintro ⟨path, resolves, same⟩
    cases resolves
    exact absurd same (by decide)
  · rintro ⟨path, resolves, -⟩
    cases resolves

end Schema

end EventQuery
