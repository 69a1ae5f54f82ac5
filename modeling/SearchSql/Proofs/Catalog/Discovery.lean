import SearchSql.Catalog.Discovery
import SearchSql.Proofs.Catalog.Column
import SearchSql.Proofs.Schema.Construction
import SearchSql.Proofs.Schema.Registration

/-!
# Discovery

A cursor that is opened is closed once and last, whatever comes of the work with it
(`Exchange.run_withCursor`). The rows that it gives are read one by one, of each table one at most
(`readRows_eq_ok_iff`), and the tables that were asked for are registered in their order, each with
the index that its row tells (`registerTables_eq_ok_iff`).
-/

namespace SearchSql.Catalog

/-! ## The calls -/

namespace Exchange

variable {α : Type}

/-- The cursor is closed once, last, and whatever comes of the work. -/
theorem run_withCursor (work : Exchange α) (log : List Call) :
    (withCursor work).run.run log =
      ((work.run.run (log ++ [.cursor])).1, (work.run.run (log ++ [.cursor])).2 ++ [.close]) := by
  have opened : (withCursor work).run.run log =
      (tryFinally work (call .close)).run.run (log ++ [.cursor]) := rfl
  rw [opened]
  rcases ran : work.run.run (log ++ [.cursor]) with ⟨result, log'⟩
  have worked : work (log ++ [.cursor]) = (result, log') := ran
  cases result with
  | error e =>
    simp only [tryFinally, tryFinally', ExceptT.run, ExceptT.mk, ExceptT.map, StateT.run,
      StateT.bind, Functor.map, bind, pure, worked]
    rfl
  | ok a =>
    simp only [tryFinally, tryFinally', ExceptT.run, ExceptT.mk, ExceptT.map, StateT.run,
      StateT.bind, Functor.map, bind, pure, worked]
    rfl

theorem run_ask (tables : List String) (schema : String) (rows : List Row) (log : List Call) :
    (ask tables schema rows).run.run log =
      (readRows [] rows >>= fun found => registerTables schema found Registry.empty tables,
        log ++ [.execute (query tables.length) (schema :: tables), .fetchAll]) := by
  have called : (ask tables schema rows).run.run log =
      (do
        let found ← ofExcept (readRows [] rows)
        ofExcept (registerTables schema found Registry.empty tables) : Exchange Registry).run.run
        (log ++ [.execute (query tables.length) (schema :: tables)] ++ [.fetchAll]) := rfl
  rw [called, List.append_assoc]
  cases readRows [] rows with
  | error e => rfl
  | ok found => rfl

end Exchange

theorem discover_nil (schema : String) (rows : List Row) :
    discover [] schema rows = (.ok Registry.empty, []) := rfl

theorem discover_eq {tables : List String} (some : tables ≠ []) (schema : String)
    (rows : List Row) :
    discover tables schema rows =
      (readRows [] rows >>= fun found => registerTables schema found Registry.empty tables,
        [.cursor, .execute (query tables.length) (schema :: tables), .fetchAll, .close]) := by
  have worked : discover tables schema rows =
      (Exchange.withCursor (Exchange.ask tables schema rows)).run.run [] := by
    rw [discover, if_neg (mt List.isEmpty_iff.mp some)]
  rw [worked, Exchange.run_withCursor, Exchange.run_ask]
  rfl

/-! ## The query -/

/-- How many placeholders a query has. A percent sign is taken with the character behind it, so a
doubled one stands for itself. -/
def placeholders : List Char → Nat
  | '%' :: c :: s => (if c = 's' then 1 else 0) + placeholders s
  | _ :: s => placeholders s
  | [] => 0

theorem placeholders_append {s : List Char} (h : s.getLast? ≠ some '%') (t : List Char) :
    placeholders (s ++ t) = placeholders s + placeholders t := by
  have later {c : Char} {s : List Char} (h : (c :: s).getLast? ≠ some '%') :
      s.getLast? ≠ some '%' := by
    cases s with
    | nil => nofun
    | cons d s => rwa [List.getLast?_cons_cons] at h
  fun_induction placeholders s with
  | case1 c s ih =>
    rw [List.cons_append, List.cons_append, placeholders, ih (later (later h)), Nat.add_assoc]
  | case2 c s other ih =>
    have plain : c ≠ '%' := by
      rintro rfl
      cases s with
      | nil => exact h rfl
      | cons d s => exact other d s rfl rfl
    rw [List.cons_append, placeholders.eq_2 _ _ (by simp [plain])]
    exact ih (later h)
  | case3 => simp

/-- A text with so many placeholders and no percent sign at its end. -/
structure HasPlaceholders (s : String) (n : Nat) : Prop where
  count : placeholders s.toList = n
  ends : s.toList.getLast? ≠ some '%'

theorem HasPlaceholders.append {s t : String} {m n : Nat} (h : HasPlaceholders s m)
    (h' : HasPlaceholders t n) : HasPlaceholders (s ++ t) (m + n) := by
  constructor
  · rw [String.toList_append, placeholders_append h.ends, h.count, h'.count]
  · rw [String.toList_append, List.getLast?_append]
    intro last
    rcases Option.or_eq_some_iff.mp last with last | ⟨-, last⟩
    · exact h'.ends last
    · exact h.ends last

theorem hasPlaceholders_intercalate (n : Nat) :
    HasPlaceholders (String.intercalate ", " (List.replicate n "%s")) n := by
  have one : HasPlaceholders "%s" 1 := ⟨rfl, by decide⟩
  have comma : HasPlaceholders ", " 0 := ⟨rfl, by decide⟩
  induction n with
  | zero => exact ⟨rfl, by decide⟩
  | succ n ih =>
    cases n with
    | zero => exact one
    | succ n =>
      rw [List.replicate_succ, List.replicate_succ, String.intercalate_cons_cons,
        ← List.replicate_succ, Nat.add_comm (n + 1) 1]
      exact (one.append comma).append ih

/-- One placeholder for the schema and one for each table. -/
theorem placeholders_query (n : Nat) : placeholders (query n).toList = n + 1 := by
  have parts : HasPlaceholders (query n) (0 + 0 + 1 + 0 + n + 0 + 0 + 0 + 0) := by
    unfold query
    exact (((((((HasPlaceholders.append ⟨rfl, by decide⟩ ⟨rfl, by decide⟩).append
      ⟨rfl, by decide⟩).append ⟨rfl, by decide⟩).append (hasPlaceholders_intercalate n)).append
      ⟨rfl, by decide⟩).append ⟨rfl, by decide⟩).append ⟨rfl, by decide⟩).append ⟨rfl, by decide⟩
  have count := parts.count
  omega

/-! ## The rows -/

/-- The index that a row tells, if its definition can be read. -/
def Row.Tells (row : Row) (index : SearchIndex) : Prop :=
  readIndex row.table.display row.index.display row.definition.display = .ok index

theorem exists_build_of_readIndex {table index definition : String} {found : SearchIndex}
    (h : readIndex table index definition = .ok found) :
    ∃ fields name key, SearchIndex.build table fields name key = .ok found := by
  unfold readIndex at h
  cases hparts : readParts? definition.toList with
  | none =>
    rw [hparts] at h
    cases h
  | some parts =>
    cases hnames : columnNames [] (splitTopLevel parts.columns) with
    | error column =>
      simp only [hparts, hnames] at h
      cases h
    | ok names =>
      simp only [hparts, hnames, Except.mapError_eq_ok] at h
      exact ⟨_, _, _, h⟩

theorem Row.Tells.relation {row : Row} {index : SearchIndex} (h : row.Tells index) :
    index.relation = row.table.display := by
  obtain ⟨fields, name, key, built⟩ := exists_build_of_readIndex h
  obtain ⟨-, -, _, _, -, -, -, -, -, -, rfl⟩ := SearchIndex.build_eq_ok_iff.mp built
  rfl

theorem Row.Tells.isRebuilt {row : Row} {index : SearchIndex} (h : row.Tells index) :
    index.IsRebuilt := by
  obtain ⟨fields, name, key, built⟩ := exists_build_of_readIndex h
  exact SearchIndex.isRebuilt_of_build built

theorem find?_eq_none_iff {indexes : List SearchIndex} {table : String} :
    indexes.find? (·.relation = table) = none ↔ table ∉ indexes.map (·.relation) := by
  simp [List.find?_eq_none]

theorem readRows_cons_eq_ok {seen found : List SearchIndex} {row : Row} {rows : List Row} :
    readRows seen (row :: rows) = .ok found ↔
      row.table.display ∉ seen.map (·.relation) ∧
        ∃ index, row.Tells index ∧ readRows (seen ++ [index]) rows = .ok found := by
  rw [readRows, ← find?_eq_none_iff]
  cases seen.find? (·.relation = row.table.display) with
  | some other => exact iff_of_false (fun h => by cases h) (fun h => by cases h.1)
  | none => exact Except.bind_eq_ok.trans (and_iff_right rfl).symm

/-- The rows are read if no table has two and each of them can be read. -/
theorem readRows_eq_ok_iff {seen found : List SearchIndex} {rows : List Row}
    (distinct : (seen.map (·.relation)).Nodup) :
    readRows seen rows = .ok found ↔
      (seen.map (·.relation) ++ rows.map (·.table.display)).Nodup ∧
        ∃ told, List.Forall₂ Row.Tells rows told ∧ found = seen ++ told := by
  induction rows generalizing seen with
  | nil => simp [readRows, distinct, eq_comm]
  | cons row rows ih =>
    -- The induction hypothesis is about rows that follow this one, whose table is seen by then.
    have grown {index : SearchIndex} (told : row.Tells index)
        (fresh : row.table.display ∉ seen.map (·.relation)) :
        ((seen ++ [index]).map (·.relation)).Nodup := by
      rw [List.map_append, List.map_singleton, told.relation, ← List.concat_eq_append]
      exact distinct.concat fresh
    rw [readRows_cons_eq_ok]
    constructor
    · rintro ⟨fresh, index, told, read⟩
      obtain ⟨all, more, hmore, rfl⟩ := (ih (grown told fresh)).mp read
      exact ⟨by simpa [told.relation] using all, index :: more, hmore.cons told, by simp⟩
    · rintro ⟨all, _, hmore, rfl⟩
      have fresh : row.table.display ∉ seen.map (·.relation) := fun known =>
        List.disjoint_of_nodup_append all known List.mem_cons_self
      cases hmore with
      | @cons _ index _ more told hmore =>
        refine ⟨fresh, index, told, (ih (grown told fresh)).mpr ⟨?_, more, hmore, by simp⟩⟩
        simpa [told.relation] using all

/-! ## The registry -/

/-- What is found for the first table is added as it is: it can be built once more. -/
theorem registerTables_cons_eq_ok {schema : String} {found : List SearchIndex}
    (rebuilt : ∀ index ∈ found, index.IsRebuilt)
    {registry registry' : Registry} {table : String} {tables : List String} :
    registerTables schema found registry (table :: tables) = .ok registry' ↔
      table ∉ registry.indexes.map (·.relation) ∧
        ∃ index, found.find? (·.relation = table) = some index ∧
          registerTables schema found ⟨registry.indexes ++ [index]⟩ tables = .ok registry' := by
  rw [registerTables]
  cases hfind : found.find? (·.relation = table) with
  | none => exact iff_of_false (fun h => by cases h) (by rintro ⟨-, _, h, -⟩; cases h)
  | some index =>
    obtain rfl : index.relation = table := by simpa using List.find?_some hfind
    have registered : registry.register index.relation (.list (index.fieldNames.map .text))
        (some index.name) index.keyField = (registry.add index).map (·, index) := by
      rw [Registry.register, rebuilt index (List.mem_of_find?_eq_some hfind)]
      change (registry.add index >>= fun grown => pure (grown, index)) = _
      cases registry.add index <;> rfl
    simp only [registered, Option.some.injEq, exists_eq_left']
    by_cases known : index.relation ∈ registry.indexes.map (·.relation)
    · rw [Registry.add, if_pos (Registry.contains_iff.mpr known)]
      exact iff_of_false (fun h => by cases h) (fun h => h.1 known)
    · rw [Registry.add, if_neg (mt Registry.contains_iff.mp known), and_iff_right known]
      exact Iff.rfl

/-- The tables are registered if they are distinct and an index is found for each of them. -/
theorem registerTables_eq_ok_iff {schema : String} {found : List SearchIndex}
    (rebuilt : ∀ index ∈ found, index.IsRebuilt)
    {registry registry' : Registry} {tables : List String}
    (distinct : (registry.indexes.map (·.relation)).Nodup) :
    registerTables schema found registry tables = .ok registry' ↔
      (registry.indexes.map (·.relation) ++ tables).Nodup ∧
        ∃ added, List.Forall₂
            (fun table index => found.find? (·.relation = table) = some index) tables added ∧
          registry'.indexes = registry.indexes ++ added := by
  induction tables generalizing registry with
  | nil =>
    obtain ⟨indexes⟩ := registry
    obtain ⟨indexes'⟩ := registry'
    simp [registerTables, distinct, eq_comm]
  | cons table tables ih =>
    have same {index : SearchIndex} (hfind : found.find? (·.relation = table) = some index) :
        index.relation = table := by simpa using List.find?_some hfind
    have grown {index : SearchIndex} (hfind : found.find? (·.relation = table) = some index)
        (fresh : table ∉ registry.indexes.map (·.relation)) :
        ((registry.indexes ++ [index]).map (·.relation)).Nodup := by
      rw [List.map_append, List.map_singleton, same hfind, ← List.concat_eq_append]
      exact distinct.concat fresh
    rw [registerTables_cons_eq_ok rebuilt]
    constructor
    · rintro ⟨fresh, index, hfind, rest⟩
      obtain ⟨all, more, hmore, indexes⟩ := (ih (grown hfind fresh)).mp rest
      exact ⟨by simpa [same hfind] using all, index :: more, hmore.cons hfind, by simp [indexes]⟩
    · rintro ⟨all, _, hmore, indexes⟩
      have fresh : table ∉ registry.indexes.map (·.relation) := fun known =>
        List.disjoint_of_nodup_append all known List.mem_cons_self
      cases hmore with
      | @cons _ index _ more hfind hmore =>
        refine ⟨fresh, index, hfind,
          (ih (grown hfind fresh)).mpr ⟨?_, more, hmore, by simp [indexes]⟩⟩
        simpa [same hfind] using all

/-! ## What is discovered -/

theorem exists_told_iff {rows : List Row} :
    (∃ told, List.Forall₂ Row.Tells rows told) ↔ ∀ row ∈ rows, ∃ index, row.Tells index := by
  constructor
  · rintro ⟨told, htold⟩ row hrow
    obtain ⟨index, -, tells⟩ := exists_of_forall₂ htold hrow
    exact ⟨index, tells⟩
  · intro readable
    induction rows with
    | nil => exact ⟨[], .nil⟩
    | cons row rows ih =>
      obtain ⟨⟨index, tells⟩, others⟩ := List.forall_mem_cons.mp readable
      obtain ⟨told, htold⟩ := ih others
      exact ⟨index :: told, htold.cons tells⟩

/-- Among the indexes that are told, that of a table is the one its row tells. -/
theorem find?_told {rows : List Row} {told : List SearchIndex}
    (htold : List.Forall₂ Row.Tells rows told) (single : (rows.map (·.table.display)).Nodup)
    {table : String} {index : SearchIndex} :
    told.find? (·.relation = table) = some index ↔
      ∃ row ∈ rows, row.table.display = table ∧ row.Tells index := by
  have relations : told.map (·.relation) = rows.map (·.table.display) := by
    rw [← List.forall₂_eq_eq_eq, List.forall₂_map_left_iff, List.forall₂_map_right_iff]
    exact (htold.imp fun _ _ tells => tells.relation).flip
  constructor
  · intro hfind
    obtain ⟨row, hrow, (tells : row.Tells index)⟩ :=
      exists_of_forall₂ htold.flip (List.mem_of_find?_eq_some hfind)
    have same : index.relation = table := by simpa using List.find?_some hfind
    exact ⟨row, hrow, tells.relation.symm.trans same, tells⟩
  · rintro ⟨row, hrow, rfl, tells⟩
    obtain ⟨index', hindex, tells'⟩ := exists_of_forall₂ htold hrow
    obtain rfl : index' = index := Except.ok.inj (tells'.symm.trans tells)
    have found : (told.find? (·.relation = row.table.display)).isSome = true :=
      List.find?_isSome.mpr ⟨index', hindex, by simpa using tells.relation⟩
    obtain ⟨other, hfind⟩ := Option.isSome_iff_exists.mp found
    have same : other.relation = row.table.display := by simpa using List.find?_some hfind
    rw [hfind, List.inj_on_of_nodup_map (relations ▸ single) (List.mem_of_find?_eq_some hfind)
      hindex (same.trans tells.relation.symm)]

/-- The tables are discovered if they are distinct, each has a row, no table has two, and each row
can be read; then each has the index that its row tells. -/
theorem discover_eq_ok_iff {tables : List String} (given : tables ≠ []) {schema : String}
    {rows : List Row} {registry : Registry} :
    (discover tables schema rows).1 = .ok registry ↔
      tables.Nodup ∧ (rows.map (·.table.display)).Nodup ∧ (∀ row ∈ rows, ∃ index, row.Tells index) ∧
        List.Forall₂ (fun table index => ∃ row ∈ rows, row.table.display = table ∧ row.Tells index)
          tables registry.indexes := by
  have rebuilt {told : List SearchIndex} (htold : List.Forall₂ Row.Tells rows told) :
      ∀ index ∈ told, index.IsRebuilt := by
    intro index hindex
    obtain ⟨row, -, (tells : row.Tells index)⟩ := exists_of_forall₂ htold.flip hindex
    exact tells.isRebuilt
  have registered {told : List SearchIndex} (htold : List.Forall₂ Row.Tells rows told)
      (single : (rows.map (·.table.display)).Nodup) :
      registerTables schema told Registry.empty tables = .ok registry ↔
        tables.Nodup ∧ List.Forall₂ (fun table index =>
          ∃ row ∈ rows, row.table.display = table ∧ row.Tells index) tables registry.indexes := by
    rw [@registerTables_eq_ok_iff schema told (rebuilt htold) Registry.empty registry tables
      List.nodup_nil]
    simp only [find?_told htold single]
    constructor
    · rintro ⟨distinct, added, hadded, same⟩
      exact ⟨distinct, same ▸ hadded⟩
    · rintro ⟨distinct, hadded⟩
      exact ⟨distinct, registry.indexes, hadded, rfl⟩
  rw [discover_eq given, Except.bind_eq_ok, ← exists_told_iff]
  constructor
  · rintro ⟨found, read, rest⟩
    obtain ⟨single, _, htold, rfl⟩ := (@readRows_eq_ok_iff [] _ _ List.nodup_nil).mp read
    obtain ⟨distinct, hadded⟩ := (registered htold single).mp rest
    exact ⟨distinct, single, ⟨_, htold⟩, hadded⟩
  · rintro ⟨distinct, single, ⟨told, htold⟩, hadded⟩
    exact ⟨told, (@readRows_eq_ok_iff [] _ _ List.nodup_nil).mpr ⟨single, told, htold, rfl⟩,
      (registered htold single).mpr ⟨distinct, hadded⟩⟩

theorem filter_eq_singleton {rows : List Row} (single : (rows.map (·.table.display)).Nodup)
    {row : Row} (hrow : row ∈ rows) :
    rows.filter (·.table.display = row.table.display) = [row] := by
  induction rows with
  | nil => cases hrow
  | cons first rows ih =>
    obtain ⟨fresh, single⟩ := List.nodup_cons.mp single
    rcases List.mem_cons.mp hrow with rfl | hrow
    · have others : rows.filter (·.table.display = row.table.display) = [] := by
        rw [List.filter_eq_nil_iff]
        intro other hother same
        exact fresh (List.mem_map.mpr ⟨other, hother, by simpa using same⟩)
      rw [List.filter_cons_of_pos (by simp), others]
    · have apart : first.table.display ≠ row.table.display := fun same =>
        fresh (List.mem_map.mpr ⟨row, hrow, same.symm⟩)
      rw [List.filter_cons_of_neg (by simpa using apart), ih single hrow]

/-- Without a table nothing is asked. Otherwise the cursor is opened, asked once and closed, whatever
comes of it; the query has a place for each parameter; and each table gets the index of its only row,
in the order of the tables, or there is an error. -/
theorem discovers_tables_in_order (tables : List String) (schema : String) (rows : List Row) :
    (tables = [] → discover tables schema rows = (.ok Registry.empty, [])) ∧
    (tables ≠ [] →
      (discover tables schema rows).2 =
        [.cursor, .execute (query tables.length) (schema :: tables), .fetchAll, .close] ∧
      placeholders (query tables.length).toList = (schema :: tables).length ∧
      ((∃ table ∈ tables, ∀ row ∈ rows, row.table.display ≠ table) ∨
          ¬ (rows.map (·.table.display)).Nodup →
        ∃ e, (discover tables schema rows).1 = .error e) ∧
      ∀ registry, (discover tables schema rows).1 = .ok registry →
        registry.indexes.map (·.relation) = tables ∧ (rows.map (·.table.display)).Nodup ∧
        ∀ index ∈ registry.indexes, ∃ row,
          rows.filter (·.table.display = index.relation) = [row] ∧
          readIndex index.relation row.index.display row.definition.display = .ok index) := by
  refine ⟨?_, fun given => ⟨?_, placeholders_query tables.length, ?_, ?_⟩⟩
  · rintro rfl
    exact discover_nil schema rows
  · rw [discover_eq given]
  · intro fault
    cases result : (discover tables schema rows).1 with
    | error e => exact ⟨e, rfl⟩
    | ok registry =>
      obtain ⟨-, single, -, each⟩ := (discover_eq_ok_iff given).mp result
      rcases fault with ⟨table, htable, none⟩ | twice
      · obtain ⟨index, -, row, hrow, same, -⟩ := exists_of_forall₂ each htable
        exact absurd same (none row hrow)
      · exact absurd single twice
  · intro registry result
    obtain ⟨-, single, -, each⟩ := (discover_eq_ok_iff given).mp result
    refine ⟨?_, single, ?_⟩
    · rw [← List.forall₂_eq_eq_eq, List.forall₂_map_left_iff]
      exact (each.imp fun _ _ ⟨_, _, same, tells⟩ => tells.relation.trans same).flip
    · intro index hindex
      obtain ⟨_, -, row, hrow, -, tells⟩ := exists_of_forall₂ each.flip hindex
      refine ⟨row, ?_, ?_⟩
      · rw [tells.relation]
        exact filter_eq_singleton single hrow
      · rw [tells.relation]
        exact tells

/-- Two rows, in the order of their tables. -/
def twoRows : List Row :=
  [⟨.text "calls", .text "calls_idx",
      .text "CREATE INDEX calls_idx ON calls USING bm25 (id, transcript) WITH (key_field='id')"⟩,
    ⟨.text "notes", .text "notes_idx", .text "CREATE INDEX notes_idx ON notes USING bm25 (body)"⟩]

/-- The tables are registered in the order in which they are asked for, and one without a row is not
found. -/
theorem two_tables_discovered :
    (∃ registry, discover ["notes", "calls"] "public" twoRows = (.ok registry,
        [.cursor, .execute (query 2) ["public", "notes", "calls"], .fetchAll, .close]) ∧
      registry.indexes.map (·.relation) = ["notes", "calls"]) ∧
    ∃ e, (discover ["notes", "tags"] "public" twoRows).1 = .error e := by
  have read : (discover ["notes", "calls"] "public" twoRows).1 =
      .ok ⟨[⟨"notes", "notes_idx", ["body"], some "body"⟩,
        ⟨"calls", "calls_idx", ["id", "transcript"], some "id"⟩]⟩ := by rfl
  obtain ⟨calls, -, -, registered⟩ :=
    (discovers_tables_in_order ["notes", "calls"] "public" twoRows).2 (List.cons_ne_nil _ _)
  obtain ⟨-, -, missing, -⟩ :=
    (discovers_tables_in_order ["notes", "tags"] "public" twoRows).2 (List.cons_ne_nil _ _)
  refine ⟨⟨_, Prod.ext read calls, (registered _ read).1⟩, missing (.inl ⟨"tags", by simp, ?_⟩)⟩
  simp only [twoRows, List.forall_mem_cons]
  exact ⟨by decide, by decide, List.forall_mem_nil _⟩

end SearchSql.Catalog
