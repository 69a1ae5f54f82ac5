import SearchSql.Proofs.Call.Placeholder
import SearchSql.Proofs.Schema.Construction

/-!
# Checked names

Names are written into SQL without quotes. What passes the check has no character that could begin
a placeholder, and a registry is only ever built from such names (`Constructed.plain`).
-/

namespace SearchSql

namespace Name

theorem not_mem_of_isIdentifier {s : List Char} (h : isIdentifier s = true) : Token.mark ∉ s := by
  cases s with
  | nil => exact List.not_mem_nil
  | cons c rest =>
    rw [isIdentifier, Bool.and_eq_true, List.all_eq_true] at h
    obtain ⟨hstart, hpart⟩ := h
    intro hmem
    rcases List.mem_cons.mp hmem with rfl | hmem
    · exact absurd hstart (by decide)
    -- A line feed at the end is not looked at, but it is no mark either.
    have inside : Token.mark ∈ dropFinalLineFeed rest := by
      unfold dropFinalLineFeed
      by_cases feed : rest.getLast? = some '\n'
      · rw [if_pos feed]
        obtain ⟨init, rfl⟩ := List.getLast?_eq_some_iff.mp feed
        rw [List.dropLast_concat]
        rcases List.mem_append.mp hmem with hmem | hmem
        · exact hmem
        · exact absurd (List.mem_singleton.mp hmem) (by decide)
      · rw [if_neg feed]
        exact hmem
    exact absurd (hpart _ inside) (by decide)

theorem plain_of_check {name : String} (h : check name = .ok ()) : Plain name := by
  unfold check at h
  split at h
  · cases h
  split at h
  · cases h
  split at h
  · cases h
  · next identifier => exact not_mem_of_isIdentifier (by simpa using identifier)

/-- Every character of a name is a dot or belongs to one of its parts. -/
theorem mem_parts {s : List Char} {c : Char} (h : c ∈ s) :
    c = '.' ∨ ∃ part ∈ parts s, c ∈ part := by
  induction s with
  | nil => cases h
  | cons d rest ih =>
    rw [parts]
    by_cases dot : d = '.'
    · rw [if_pos dot]
      rcases List.mem_cons.mp h with rfl | h
      · exact Or.inl dot
      · refine (ih h).imp_right ?_
        rintro ⟨part, hpart, hc⟩
        exact ⟨part, List.mem_cons_of_mem _ hpart, hc⟩
    · rw [if_neg dot]
      cases hparts : parts rest with
      | nil =>
        rcases List.mem_cons.mp h with rfl | h
        · exact Or.inr ⟨[c], List.mem_cons_self, List.mem_cons_self⟩
        · refine (ih h).imp_right ?_
          rintro ⟨part, hpart, -⟩
          rw [hparts] at hpart
          cases hpart
      | cons p ps =>
        rcases List.mem_cons.mp h with rfl | h
        · exact Or.inr ⟨c :: p, List.mem_cons_self, List.mem_cons_self⟩
        · refine (ih h).imp_right ?_
          rintro ⟨part, hpart, hc⟩
          rw [hparts] at hpart
          rcases List.mem_cons.mp hpart with rfl | hpart
          · exact ⟨d :: part, List.mem_cons_self, List.mem_cons_of_mem _ hc⟩
          · exact ⟨part, List.mem_cons_of_mem _ hpart, hc⟩

theorem plain_of_checkRelation {name : String} (h : checkRelation name = .ok ()) :
    Plain name := by
  unfold checkRelation at h
  by_cases qualified : 2 < (parts name.toList).length
  · simp only [if_pos qualified] at h
    cases h
  simp only [if_neg qualified] at h
  intro hmem
  rcases mem_parts hmem with dot | ⟨part, hpart, hmark⟩
  · exact absurd dot (by decide)
  · have plain := plain_of_check (Except.forM_eq_ok.mp h part hpart)
    rw [Plain, String.toList_ofList] at plain
    exact plain hmark

end Name

namespace SearchIndex

/-- All names of the index have passed the check. -/
structure IsChecked (index : SearchIndex) : Prop where
  name : Name.checkRelation index.name = .ok ()
  fields : ∀ f ∈ index.fieldNames, Name.check f = .ok ()

/-- All names of the index show no placeholder. -/
structure IsPlain (index : SearchIndex) : Prop where
  name : Plain index.name
  fields : ∀ f ∈ index.fieldNames, Plain f

theorem IsChecked.isPlain {index : SearchIndex} (h : index.IsChecked) : index.IsPlain :=
  ⟨Name.plain_of_checkRelation h.name, fun f hf => Name.plain_of_check (h.fields f hf)⟩

theorem isChecked_of_build {relation : String} {fields : Value} {name keyField : Option String}
    {index : SearchIndex} (h : build relation fields name keyField = .ok index) :
    index.IsChecked := by
  obtain ⟨-, hname, items, names, -, -, checked, -, -, -, rfl⟩ := build_eq_ok_iff.mp h
  exact ⟨hname, checked⟩

end SearchIndex

namespace Registry

/-- The registries that can be built: indexes are added one by one, each as it was built. -/
inductive Constructed : Registry → Prop where
  | empty : Constructed empty
  | add {registry registry' : Registry} {index : SearchIndex} {relation : String} {fields : Value}
      {name keyField : Option String} (earlier : Constructed registry)
      (built : SearchIndex.build relation fields name keyField = .ok index)
      (added : registry.add index = .ok registry') : Constructed registry'

theorem Constructed.isChecked {registry : Registry} (h : registry.Constructed) :
    ∀ index ∈ registry.indexes, index.IsChecked := by
  induction h with
  | empty => exact List.forall_mem_nil _
  | @add registry registry' index _ _ _ _ _ built added ih =>
    unfold Registry.add at added
    by_cases known : registry.contains index.relation = true
    · rw [if_pos known] at added
      cases added
    · rw [if_neg known] at added
      cases added
      refine List.forall_mem_append.mpr ⟨ih, ?_⟩
      exact List.forall_mem_singleton.mpr (SearchIndex.isChecked_of_build built)

theorem Constructed.isPlain {registry : Registry} (h : registry.Constructed) :
    ∀ index ∈ registry.indexes, index.IsPlain :=
  fun index registered => (h.isChecked index registered).isPlain

theorem constructed_of_register {registry registry' : Registry} {index : SearchIndex}
    {relation : String} {fields : Value} {indexName keyField : Option String}
    (earlier : registry.Constructed)
    (h : registry.register relation fields indexName keyField = .ok (registry', index)) :
    registry'.Constructed := by
  obtain ⟨index', built, h⟩ := Except.bind_eq_ok.mp h
  obtain ⟨registry'', added, h⟩ := Except.bind_eq_ok.mp h
  cases h
  exact .add earlier built added

theorem constructed_of_registerEntry {registry registry' : Registry} {relation : String}
    {entry : SchemaEntry} (earlier : registry.Constructed)
    (h : registry.registerEntry relation entry = .ok registry') : registry'.Constructed := by
  cases entry with
  | fields fields =>
    obtain ⟨⟨_, index⟩, hregister, rfl⟩ := Except.map_eq_ok.mp h
    exact constructed_of_register earlier hregister
  | described fields indexName keyField =>
    cases fields with
    | none => cases h
    | some fields =>
      obtain ⟨⟨_, index⟩, hregister, rfl⟩ := Except.map_eq_ok.mp h
      exact constructed_of_register earlier hregister

/-- The registry of a schema is one of them. -/
theorem constructed_of_schema {schema : List (String × SchemaEntry)} {registry : Registry}
    (h : ofSchema schema = .ok registry) : registry.Constructed := by
  have grown (rows : List (String × SchemaEntry)) : ∀ (start finish : Registry),
      start.Constructed →
      rows.foldlM (fun r row => r.registerEntry row.1 row.2) start = .ok finish →
      finish.Constructed := by
    induction rows with
    | nil =>
      intro start finish earlier hrows
      cases hrows
      exact earlier
    | cons row rows ih =>
      intro start finish earlier hrows
      rw [List.foldlM_cons] at hrows
      obtain ⟨next, hnext, hrows⟩ := Except.bind_eq_ok.mp hrows
      exact ih next finish (constructed_of_registerEntry earlier hnext) hrows
  exact grown schema empty registry .empty h

end Registry

end SearchSql
