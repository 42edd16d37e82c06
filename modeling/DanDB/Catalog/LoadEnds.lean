import DanDB.Catalog.CatalogLoader

/-!
# Loading ends

Every step that `load` takes with a row is defined, because a valid row of a system
table has the values that the step looks for.  So `load` ends when the walks
through the four trees do.
-/

namespace DanDB.Catalog

open DanDB.Core Record Storage PageProgram RowCodec Walks Relation

variable {array : PageArray} {α β σ : Type}

/-! ## Defined steps -/

/-- A step is defined, and its value is as the postcondition says. -/
structure Gives (r : Except Failure α) (post : α → Prop) : Prop where
  defined : Defined r
  value : ∀ a, r = .ok a → post a

section Gives

variable {r : Except Failure α} {post : α → Prop}

theorem gives_ok {a : α} (h : post a) : Gives (.ok a) post :=
  ⟨defined_ok a, fun _ ha => Except.ok.inj ha ▸ h⟩

/-- An error that is a status is defined. -/
theorem gives_status (status : Status) : Gives (.error (.status status)) post :=
  ⟨defined_status status, nofun⟩

/-- One step after another. -/
theorem Gives.bind {f : α → Except Failure β} {post : β → Prop} {mid : α → Prop} (h : Gives r mid)
    (hf : ∀ a, mid a → Gives (f a) post) : Gives (r >>= f) post := by
  refine ⟨h.defined.bind fun a ha => (hf a (h.value a ha)).defined, fun b hb => ?_⟩
  obtain ⟨a, ha, hb⟩ := bind_eq_ok.mp hb
  exact (hf a (h.value a ha)).value b hb

/-- A weaker postcondition. -/
theorem Gives.mono {post' : α → Prop} (h : Gives r post) (himp : ∀ a, post a → post' a) :
    Gives r post' := ⟨h.defined, fun a ha => himp a (h.value a ha)⟩

/-- Behind a check its condition does not hold. -/
theorem gives_check (condition : Prop) [Decidable condition] (message : String) :
    Gives (CatalogLoader.check condition message) fun _ => ¬condition := by
  unfold CatalogLoader.check rejectIf
  split
  · exact gives_status _
  · exact gives_ok ‹_›

/-- A result that is reported as corruption. -/
theorem gives_orCorrupt (context : String) (r : Result α) :
    Gives (CatalogLoader.orCorrupt context r) fun a => r = .ok a := by
  cases r with
  | error status => exact gives_status _
  | ok a => exact gives_ok rfl

theorem gives_mapError (r : Result α) : Gives (r.mapError Failure.status) fun a => r = .ok a := by
  cases r with
  | error status => exact gives_status status
  | ok a => exact gives_ok rfl

/-- A loop of steps, each of which may fail. -/
theorem gives_forM {f : β → Except Failure Unit} {bs : List β} {post : β → Prop}
    (h : ∀ b ∈ bs, Gives (f b) fun _ => post b) : Gives (bs.forM f) fun _ => ∀ b ∈ bs, post b := by
  induction bs with
  | nil => exact gives_ok nofun
  | cons b bs ih =>
    show Gives (f b >>= fun _ => bs.forM f) _
    refine (h b (List.mem_cons_self ..)).bind fun _ hb => ?_
    refine (ih fun c hc => h c (List.mem_cons_of_mem _ hc)).mono fun _ hbs => ?_
    exact List.forall_mem_cons.mpr ⟨hb, hbs⟩

/-- A defined step ends. -/
theorem ends_defined (h : Gives r post) : Ends array false (CatalogLoader.defined r) post := by
  cases r with
  | ok a => exact ends_pure (h.value a rfl)
  | error failure =>
    obtain ⟨status, rfl⟩ := h.defined failure rfl
    exact ends_fail status

end Gives

/-! ## The values of a valid row -/

/-- A column takes a payload. -/
structure Takes (column : Column) (payload : Payload) : Prop where
  fits : payload.Fits column.logicalType
  not_null : column.nullable = false → payload ≠ .null

/-- A valid row has a value for each column that the column takes. -/
theorem takes_of_validateRow {schema : Schema} {row : Row} (h : validateRow schema row = .ok ()) :
    List.Forall₂ Takes schema.columns (row.values.map Value.payload) := by
  rw [List.forall₂_map_right_iff]
  refine (forall₂_of_validateRow h).imp fun column value hvalue => ⟨?_, fun hnullable hnull => ?_⟩
  · rw [← type_of_validateValue hvalue]
    exact value.fits
  · simp [validateValue, bind_eq_ok, hnull, hnullable] at hvalue

section Takes

variable {column : Column} {payload : Payload}

/-- A column of integers that is not nullable takes integers. -/
theorem Takes.integer (h : Takes column payload) (hnullable : column.nullable = false)
    (htype : column.logicalType = .int64 ∨ column.logicalType = .int8) :
    ∃ value, payload = .integer value := by
  have hfits := h.fits
  cases payload with
  | integer value => exact ⟨value, rfl⟩
  | null => exact absurd rfl (h.not_null hnullable)
  | _ => obtain htype | htype := htype <;> rw [htype] at hfits <;> exact hfits.elim

/-- A nullable one also takes nulls. -/
theorem Takes.nullableInteger (h : Takes column payload) (htype : column.logicalType = .int64) :
    payload = .null ∨ ∃ value, payload = .integer value := by
  have hfits := h.fits
  rw [htype] at hfits
  cases payload with
  | integer value => exact .inr ⟨value, rfl⟩
  | null => exact .inl rfl
  | _ => exact hfits.elim

/-- A column of names takes strings. -/
theorem Takes.string (h : Takes column payload) (hnullable : column.nullable = false)
    (htype : column.logicalType = SystemTables.nameType) : ∃ value, payload = .string value := by
  have hfits := h.fits
  rw [htype] at hfits
  cases payload with
  | string value => exact ⟨value, rfl⟩
  | null => exact absurd rfl (h.not_null hnullable)
  | _ => exact hfits.elim

theorem Takes.boolean (h : Takes column payload) (hnullable : column.nullable = false)
    (htype : column.logicalType = .boolean) : ∃ value, payload = .boolean value := by
  have hfits := h.fits
  rw [htype] at hfits
  cases payload with
  | boolean value => exact ⟨value, rfl⟩
  | null => exact absurd rfl (h.not_null hnullable)
  | _ => exact hfits.elim

end Takes

section Rows

variable {row : Row}

/-- The values of a row of `dandb_tables`, which `load` looks for. -/
theorem tables_payloads (h : validateRow SystemTables.tables row = .ok ()) :
    ∃ tableId name rootPageId,
      row.values.map Value.payload = [.integer tableId, .string name, .integer rootPageId] := by
  have hrow := takes_of_validateRow h
  simp only [SystemTables.tables, List.forall₂_cons_left_iff, List.forall₂_nil_left_iff] at hrow
  obtain ⟨_, _, hid, ⟨_, _, hname, ⟨_, _, hroot, rfl, rfl⟩, rfl⟩, hrow⟩ := hrow
  obtain ⟨tableId, rfl⟩ := hid.integer rfl (.inl rfl)
  obtain ⟨name, rfl⟩ := hname.string rfl rfl
  obtain ⟨rootPageId, rfl⟩ := hroot.integer rfl (.inl rfl)
  exact ⟨tableId, name, rootPageId, hrow⟩

/-- The values of a row of `dandb_index_columns`. -/
theorem indexColumns_payloads (h : validateRow SystemTables.indexColumns row = .ok ()) :
    ∃ indexId columnId ordinal,
      row.values.map Value.payload = [.integer indexId, .integer columnId, .integer ordinal] := by
  have hrow := takes_of_validateRow h
  simp only [SystemTables.indexColumns, List.forall₂_cons_left_iff, List.forall₂_nil_left_iff]
    at hrow
  obtain ⟨_, _, hid, ⟨_, _, hcolumn, ⟨_, _, hordinal, rfl, rfl⟩, rfl⟩, hrow⟩ := hrow
  obtain ⟨indexId, rfl⟩ := hid.integer rfl (.inl rfl)
  obtain ⟨columnId, rfl⟩ := hcolumn.integer rfl (.inl rfl)
  obtain ⟨ordinal, rfl⟩ := hordinal.integer rfl (.inl rfl)
  exact ⟨indexId, columnId, ordinal, hrow⟩

/-- The values of a row of `dandb_columns`; the capacity may be null. -/
theorem columns_payloads (h : validateRow SystemTables.columns row = .ok ()) :
    ∃ columnId tableId name typeKind typeCapacity ordinal nullable primaryKey unique,
      row.values.map Value.payload = [.integer columnId, .integer tableId, .string name,
        .integer typeKind, typeCapacity, .integer ordinal, .boolean nullable, .boolean primaryKey,
        .boolean unique] ∧ (typeCapacity = .null ∨ ∃ capacity, typeCapacity = .integer capacity) := by
  have hrow := takes_of_validateRow h
  simp only [SystemTables.columns, List.forall₂_cons_left_iff, List.forall₂_nil_left_iff] at hrow
  obtain ⟨_, _, hid, ⟨_, _, htable, ⟨_, _, hname, ⟨_, _, hkind, ⟨capacity, _, hcapacity, ⟨_, _,
    hordinal, ⟨_, _, hnullable, ⟨_, _, hprimary, ⟨_, _, hunique, rfl, rfl⟩, rfl⟩, rfl⟩, rfl⟩,
    rfl⟩, rfl⟩, rfl⟩, rfl⟩, hrow⟩ := hrow
  obtain ⟨columnId, rfl⟩ := hid.integer rfl (.inl rfl)
  obtain ⟨tableId, rfl⟩ := htable.integer rfl (.inl rfl)
  obtain ⟨name, rfl⟩ := hname.string rfl rfl
  obtain ⟨typeKind, rfl⟩ := hkind.integer rfl (.inr rfl)
  obtain ⟨ordinal, rfl⟩ := hordinal.integer rfl (.inl rfl)
  obtain ⟨nullable, rfl⟩ := hnullable.boolean rfl rfl
  obtain ⟨primaryKey, rfl⟩ := hprimary.boolean rfl rfl
  obtain ⟨unique, rfl⟩ := hunique.boolean rfl rfl
  exact ⟨columnId, tableId, name, typeKind, capacity, ordinal, nullable, primaryKey, unique, hrow,
    hcapacity.nullableInteger rfl⟩

/-- The values of a row of `dandb_indexes`. -/
theorem indexes_payloads (h : validateRow SystemTables.indexes row = .ok ()) :
    ∃ indexId tableId name rootPageId unique primary internal,
      row.values.map Value.payload = [.integer indexId, .integer tableId, .string name,
        .integer rootPageId, .boolean unique, .boolean primary, .boolean internal] := by
  have hrow := takes_of_validateRow h
  simp only [SystemTables.indexes, List.forall₂_cons_left_iff, List.forall₂_nil_left_iff] at hrow
  obtain ⟨_, _, hid, ⟨_, _, htable, ⟨_, _, hname, ⟨_, _, hroot, ⟨_, _, hunique, ⟨_, _, hprimary,
    ⟨_, _, hinternal, rfl, rfl⟩, rfl⟩, rfl⟩, rfl⟩, rfl⟩, rfl⟩, hrow⟩ := hrow
  obtain ⟨indexId, rfl⟩ := hid.integer rfl (.inl rfl)
  obtain ⟨tableId, rfl⟩ := htable.integer rfl (.inl rfl)
  obtain ⟨name, rfl⟩ := hname.string rfl rfl
  obtain ⟨rootPageId, rfl⟩ := hroot.integer rfl (.inl rfl)
  obtain ⟨unique, rfl⟩ := hunique.boolean rfl rfl
  obtain ⟨primary, rfl⟩ := hprimary.boolean rfl rfl
  obtain ⟨internal, rfl⟩ := hinternal.boolean rfl rfl
  exact ⟨indexId, tableId, name, rootPageId, unique, primary, internal, hrow⟩

end Rows

namespace CatalogLoader

/-! ## Rows -/

/-- The columns of a schema lie behind the null bitmap and within the row. -/
structure InRow (schema : Schema) : Prop where
  bitmap : schema.nullBitmapSize.toNat = (schema.columns.length + 7) / 8
  bitmap_le : (schema.columns.length + 7) / 8 ≤ schema.rowSize.toNat
  column_le : ∀ column ∈ schema.columns, column.fixedEnd ≤ schema.rowSize.toNat

/-- The schemas of the system tables have room for their columns. -/
theorem inRow_tables : InRow SystemTables.tables := ⟨rfl, by decide, by decide⟩

theorem inRow_columns : InRow SystemTables.columns := ⟨rfl, by decide, by decide⟩

theorem inRow_indexes : InRow SystemTables.indexes := ⟨rfl, by decide, by decide⟩

theorem inRow_indexColumns : InRow SystemTables.indexColumns := ⟨rfl, by decide, by decide⟩

/-- The row of an entry is valid. -/
theorem gives_entryRow {schema : Schema} (h : InRow schema) (name : String) (entry : BTreeEntry) :
    Gives (entryRow name schema entry) fun row => validateRow schema row = .ok () := by
  have hdecode := defined_decode h.bitmap h.bitmap_le h.column_le entry.value
  unfold entryRow
  cases hrow : decode schema entry.value with
  | error failure =>
    obtain ⟨status, rfl⟩ := hdecode failure hrow
    exact gives_status _
  | ok row =>
    refine (gives_orCorrupt _ (RowHelpers.primaryKeyBytes schema row)).bind fun primaryKey hkey => ?_
    obtain ⟨_, hvalid, -⟩ := bind_eq_ok.mp hkey
    exact (gives_check _ _).bind fun _ _ => gives_ok hvalid

variable {header : DatabaseHeader} {state : LoadState} {row : Row}

/-- A row of a table is loaded or reported. -/
theorem gives_loadTable (h : validateRow SystemTables.tables row = .ok ()) :
    Gives (loadTable header state row) fun _ => True := by
  obtain ⟨storedTableId, tableName, storedTableRootPageId, hrow⟩ := tables_payloads h
  rw [loadTable, hrow]
  refine (gives_check _ _).bind fun _ _ => (gives_check _ _).bind fun _ _ => ?_
  refine (gives_check _ _).bind fun _ _ => (gives_check _ _).bind fun _ _ => ?_
  refine (gives_check _ _).bind fun _ _ => (gives_check _ _).bind fun _ _ => ?_
  exact (gives_orCorrupt _ _).bind fun descriptor _ => gives_ok trivial

/-- The tables of a state are also tables of another one. -/
def KeepsTables (state state' : LoadState) : Prop :=
  ∀ tableId ∈ state.tableById, tableId ∈ state'.tableById

/-- A capacity that is neither null nor an integer cannot occur. -/
theorem gives_loadCapacity {payload : Payload}
    (h : payload = .null ∨ ∃ capacity, payload = .integer capacity) :
    Gives (loadCapacity payload) fun _ => True := by
  obtain rfl | ⟨capacity, rfl⟩ := h
  · exact gives_ok trivial
  · exact (gives_check _ _).bind fun _ _ => gives_ok trivial

/-- A row of a column is loaded or reported, and the tables stay. -/
theorem gives_loadColumn (h : validateRow SystemTables.columns row = .ok ()) :
    Gives (loadColumn state row) (KeepsTables state) := by
  obtain ⟨storedColumnId, storedTableId, columnName, storedTypeKind, typeCapacity, storedOrdinal,
    nullable, primaryKey, unique, hrow, hcapacity⟩ := columns_payloads h
  rw [loadColumn, hrow]
  refine (gives_check _ _).bind fun _ _ => (gives_check _ _).bind fun _ _ => ?_
  refine (gives_check _ _).bind fun _ _ => (gives_check _ _).bind fun _ _ => ?_
  split
  · exact gives_status _
  · refine (gives_check _ _).bind fun _ _ => (gives_loadCapacity hcapacity).bind fun _ _ => ?_
    refine (gives_orCorrupt _ _).bind fun logicalType _ => ?_
    refine (gives_orCorrupt _ _).bind fun descriptor _ => gives_ok fun tableId htable => ?_
    exact AList.mem_insert _ |>.mpr (.inr htable)

/-- So is the row that says which column an index is on. -/
theorem gives_loadIndexColumn (h : validateRow SystemTables.indexColumns row = .ok ()) :
    Gives (loadIndexColumn state row) (KeepsTables state) := by
  obtain ⟨storedIndexId, storedColumnId, storedOrdinal, hrow⟩ := indexColumns_payloads h
  rw [loadIndexColumn, hrow]
  refine (gives_check _ _).bind fun _ _ => (gives_check _ _).bind fun _ _ => ?_
  refine (gives_check _ _).bind fun _ _ => (gives_check _ _).bind fun _ _ => ?_
  exact (gives_check _ _).bind fun _ _ => gives_ok fun tableId htable => htable

/-- So is the row of an index. -/
theorem gives_loadIndex {indexNames : List String}
    (h : validateRow SystemTables.indexes row = .ok ()) :
    Gives (loadIndex header (state, indexNames) row) fun loaded => KeepsTables state loaded.1 := by
  obtain ⟨storedIndexId, storedTableId, indexName, storedRootPageId, unique, primary, internal,
    hrow⟩ := indexes_payloads h
  rw [loadIndex, hrow]
  refine (gives_check _ _).bind fun _ _ => (gives_check _ _).bind fun _ _ => ?_
  refine (gives_check _ _).bind fun _ _ => (gives_check _ _).bind fun _ _ => ?_
  refine (gives_check _ _).bind fun _ _ => ?_
  split
  · exact gives_status _
  · exact gives_status _
  · refine (gives_check _ _).bind fun _ _ => (gives_orCorrupt _ _).bind fun descriptor _ => ?_
    exact gives_ok fun tableId htable => AList.mem_insert _ |>.mpr (.inr htable)

/-! ## Tables -/

/-- Neither the first children nor the leaves of a tree lead into a cycle. -/
structure Scannable (array : PageArray) (rootPageId : PageId) : Prop where
  children : AcyclicFrom (BTree.FirstChild array) rootPageId
  leaves : ∀ leafPageId, ReflTransGen (BTree.FirstChild array) rootPageId leafPageId →
    AcyclicFrom (BTree.NextLeaf array) leafPageId

/-- Opening a tree follows no page id. -/
theorem ends_openExisting (rootPageId : PageId) (keySize valueSize : Nat) :
    Ends array false (BTree.openExisting rootPageId keySize valueSize) fun tree =>
      tree.rootPageId = rootPageId :=
  ends_withPage fun _ _ => ends_done_bind fun _ _ => ends_failIf_bind fun _ =>
    ends_failIf_bind fun _ => ends_failIf_bind fun _ => ends_pure rfl

/-- A loop over the rows of a system table keeps what its body keeps. -/
theorem ends_loadRows {name : String} {created : Result Schema} {schema : Schema}
    {rootPageId : PageId} {loadRow : σ → Row → Except Failure σ} {inv : σ → Prop} {state : σ}
    (hcreated : created = .ok schema) (hschema : InRow schema) (hscan : Scannable array rootPageId)
    (hrow : ∀ state row, inv state → validateRow schema row = .ok () →
      Gives (loadRow state row) inv) (hstate : inv state) :
    Ends array false (loadRows name created rootPageId loadRow state) inv := by
  subst hcreated
  refine ends_done_bind fun _ h => ?_
  cases h
  refine ends_failIf_bind fun _ => ((ends_openExisting _ _ _).mapError _).bind fun tree htree => ?_
  subst htree
  refine ((BTree.ends_scan hscan.children).mapError _).bind fun cursor hcursor => ?_
  refine BTreeCursor.ends_foldEntries (fun cursor hcursor =>
    (BTreeCursor.ends_next hcursor).mapError _) ?_ (hscan.leaves _ hcursor) hstate
  intro state entry hstate
  refine ends_defined ((gives_entryRow hschema name entry).bind fun row hvalid => ?_)
  exact hrow state row hstate hvalid

/-- The system tables are among the tables. -/
def HasSystemTables (state : LoadState) : Prop :=
  ∀ tableId ∈ [dandbTablesId, dandbColumnsId, dandbIndexesId, dandbIndexColumnsId],
    tableId ∈ state.tableById

theorem HasSystemTables.keep {state' : LoadState} (h : HasSystemTables state)
    (hkeeps : KeepsTables state state') : HasSystemTables state' :=
  fun tableId htable => hkeeps tableId (h tableId htable)

/-- A system table that passes its check is among the tables. -/
theorem gives_checkSystemTable (expected : TableId × String × PageId) :
    Gives (checkSystemTable state expected) fun _ => expected.1 ∈ state.tableById := by
  unfold checkSystemTable
  split
  · exact gives_status _
  · rename_i info hlookup
    refine (gives_check _ _).bind fun _ _ => (gives_check _ _).mono fun _ _ => ?_
    exact AList.lookup_isSome.mp (by rw [hlookup]; rfl)

/-- Loading the tables ends, and then the system tables are there. -/
theorem ends_loadTables (h : Scannable array header.systemTablesRootPageId) :
    Ends array false (loadTables header state) HasSystemTables := by
  refine (ends_loadRows SystemTables.tablesSchema_eq inRow_tables h
    (fun _ _ _ hvalid => gives_loadTable hvalid) trivial).bind fun state _ => ?_
  refine (ends_defined (gives_forM fun expected _ => gives_checkSystemTable expected)).bind
    fun _ hsystem => ends_pure ?_
  simp only [expectedSystemTables, List.forall_mem_cons] at hsystem
  obtain ⟨htables, hcolumns, hindexes, hindexColumns, -⟩ := hsystem
  simp only [HasSystemTables, List.forall_mem_cons]
  exact ⟨htables, hcolumns, hindexes, hindexColumns, nofun⟩

/-- Loading the columns ends. -/
theorem ends_loadColumns (h : Scannable array header.systemColumnsRootPageId)
    (hstate : HasSystemTables state) : Ends array false (loadColumns header state) HasSystemTables :=
  ends_loadRows SystemTables.columnsSchema_eq inRow_columns h
    (fun _ _ hstate hvalid => (gives_loadColumn hvalid).mono fun _ hkeeps => hstate.keep hkeeps)
    hstate

/-- Loading the columns of the indexes ends. -/
theorem ends_loadIndexColumns (h : Scannable array header.systemIndexColumnsRootPageId)
    (hstate : HasSystemTables state) :
    Ends array false (loadIndexColumns header state) HasSystemTables :=
  ends_loadRows SystemTables.indexColumnsSchema_eq inRow_indexColumns h
    (fun _ _ hstate hvalid => (gives_loadIndexColumn hvalid).mono fun _ hkeeps =>
      hstate.keep hkeeps) hstate

/-- Loading the indexes ends. -/
theorem ends_loadIndexes (h : Scannable array header.systemIndexesRootPageId)
    (hstate : HasSystemTables state) : Ends array false (loadIndexes header state) HasSystemTables := by
  have hrows : Ends array false (loadRows dandbIndexesName SystemTables.indexesSchema
      header.systemIndexesRootPageId (loadIndex header) (state, []))
      fun loaded => HasSystemTables loaded.1 :=
    ends_loadRows SystemTables.indexesSchema_eq inRow_indexes h
      (fun _ _ hstate hvalid => (gives_loadIndex hvalid).mono fun _ hkeeps => hstate.keep hkeeps)
      hstate
  refine hrows.bind fun loaded hloaded => ?_
  exact (ends_defined (gives_check _ _)).bind fun _ _ => ends_pure hloaded

/-! ## Schemas -/

/-- The columns of a table become those of its schema, or it is corrupt. -/
theorem gives_resolveColumns (ordinal : UInt64) (descriptors : List ColumnDescriptor) :
    Gives (resolveColumns ordinal descriptors) fun _ => True := by
  induction descriptors generalizing ordinal with
  | nil => exact gives_ok trivial
  | cons descriptor descriptors ih =>
    refine (gives_check _ _).bind fun _ _ => (gives_orCorrupt _ _).bind fun column _ => ?_
    exact (ih (ordinal + 1)).bind fun _ _ => gives_ok trivial

theorem gives_checkPrimaryIndex (tableId : TableId) (info : TableInfo) (schema : Schema) :
    Gives (checkPrimaryIndex tableId info schema) fun _ => True := by
  unfold checkPrimaryIndex
  split
  · refine (gives_check _ _).bind fun _ _ => (gives_check _ _).bind fun _ _ => ?_
    exact (gives_forM fun system _ => gives_check _ _).mono fun _ _ => trivial
  · exact gives_status _

/-- A table gets its schema, and the others keep theirs. -/
theorem gives_resolveTable (orders : Orders) (entry : TableId × TableInfo) :
    Gives (resolveTable orders state entry) fun state' =>
      entry.1 ∈ state'.tableSchemaById ∧
        ∀ tableId ∈ state.tableSchemaById, tableId ∈ state'.tableSchemaById := by
  refine (gives_resolveColumns _ _).bind fun columns _ => (gives_orCorrupt _ _).bind fun schema _ => ?_
  refine (gives_checkPrimaryIndex _ _ _).bind fun _ _ => gives_ok ⟨?_, fun tableId htable => ?_⟩
  · exact AList.mem_insert _ |>.mpr (.inl rfl)
  · exact AList.mem_insert _ |>.mpr (.inr htable)

/-- Every table gets a schema. -/
theorem gives_resolveTables (orders : Orders) (entries : List (TableId × TableInfo)) :
    Gives (entries.foldlM (resolveTable orders) state) fun state' =>
      (∀ entry ∈ entries, entry.1 ∈ state'.tableSchemaById) ∧
        ∀ tableId ∈ state.tableSchemaById, tableId ∈ state'.tableSchemaById := by
  induction entries generalizing state with
  | nil => exact gives_ok ⟨nofun, fun _ htable => htable⟩
  | cons entry entries ih =>
    rw [List.foldlM_cons]
    refine (gives_resolveTable orders entry).bind fun state' ⟨hentry, hkeeps⟩ => ?_
    refine ih.mono fun state'' ⟨hentries, hkeeps'⟩ => ⟨?_, fun tableId htable => ?_⟩
    · exact List.forall_mem_cons.mpr ⟨hkeeps' _ hentry, hentries⟩
    · exact hkeeps' tableId (hkeeps tableId htable)

/-- A table with a schema is compared with the schema it should have. -/
theorem gives_checkCanonical {canonical : TableId × Schema}
    (h : canonical.1 ∈ state.tableSchemaById) :
    Gives (checkCanonical state canonical) fun _ => True := by
  obtain ⟨loaded, hlookup⟩ := Option.isSome_iff_exists.mp (AList.lookup_isSome.mpr h)
  rw [checkCanonical, hlookup]
  exact (gives_check _ _).bind fun _ _ => (gives_check _ _).mono fun _ _ => trivial

/-- The schemas of the system tables are there to be compared. -/
theorem gives_resolveSchemas (orders : Orders) (hstate : HasSystemTables state) :
    Gives (resolveSchemas orders state) fun _ => True := by
  refine (gives_resolveTables orders _).bind fun state' ⟨hentries, _⟩ => ?_
  have hschemas : ∀ tableId ∈ [dandbTablesId, dandbColumnsId, dandbIndexesId, dandbIndexColumnsId],
      tableId ∈ state'.tableSchemaById := by
    intro tableId htable
    have hmem := hstate tableId htable
    obtain ⟨info, hlookup⟩ := Option.isSome_iff_exists.mp (AList.lookup_isSome.mpr hmem)
    refine hentries (tableId, info) (orders.tables.mem_visit.mpr (List.mem_map.mpr ?_))
    exact ⟨⟨tableId, info⟩, AList.mem_lookup_iff.mp hlookup, rfl⟩
  refine (gives_mapError _).bind fun tables _ => (gives_mapError _).bind fun columns _ => ?_
  refine (gives_mapError _).bind fun indexes _ => (gives_mapError _).bind fun indexColumns _ => ?_
  simp only [List.forall_mem_cons] at hschemas
  obtain ⟨htables, hcolumns, hindexes, hindexColumns, -⟩ := hschemas
  have hcanonical : ∀ canonical ∈ [(dandbTablesId, tables), (dandbColumnsId, columns),
      (dandbIndexesId, indexes), (dandbIndexColumnsId, indexColumns)],
      Gives (checkCanonical state' canonical) fun _ => True := by
    simp only [List.forall_mem_cons]
    exact ⟨gives_checkCanonical htables, gives_checkCanonical hcolumns,
      gives_checkCanonical hindexes, gives_checkCanonical hindexColumns, nofun⟩
  exact (gives_forM hcanonical).bind fun _ _ => gives_ok trivial

/-- The roots of the system tables. -/
def systemRoots (header : DatabaseHeader) : List PageId :=
  [header.systemTablesRootPageId, header.systemColumnsRootPageId,
    header.systemIndexColumnsRootPageId, header.systemIndexesRootPageId]

/-- `load` ends if the system tables can be scanned. -/
theorem ends_load (orders : Orders)
    (h : ∀ rootPageId ∈ systemRoots header, Scannable array rootPageId) :
    Ends array false (load orders header) fun _ => True := by
  simp only [systemRoots, List.forall_mem_cons] at h
  obtain ⟨htables, hcolumns, hindexColumns, hindexes, -⟩ := h
  refine (ends_loadTables htables).bind fun state hstate => ?_
  refine (ends_loadColumns hcolumns hstate).bind fun state hstate => ?_
  refine (ends_loadIndexColumns hindexColumns hstate).bind fun state hstate => ?_
  refine (ends_loadIndexes hindexes hstate).bind fun state hstate => ?_
  exact (ends_defined (gives_resolveSchemas orders hstate)).bind fun _ _ => ends_pure trivial

end CatalogLoader

end DanDB.Catalog
