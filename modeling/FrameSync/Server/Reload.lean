import FrameSync.Foundations.LuaHeap

/-! # Reloading a module

`reload` of `reload.lua`. The new file runs in the table of the module; then the globals that held a
table before are merged, the new table into the old one, which becomes the global again. Nothing is
undone when the file or a merge raises. `reload_merges` says what a reload leaves behind where the merges do
not get into one another's way (`Mergeable`). -/

namespace FrameSync.Server

open LuaHeap

variable {ι : Type} [DecidableEq ι]

/-- `oldCache`: the tables that globals hold. -/
abbrev Cache (ι : Type) [DecidableEq ι] := AList fun _ : Value ι => ℕ

/-- `oldCache[k] = v`, if `v` is a table. -/
def Cache.add (cache : Cache ι) (k : Value ι) : Value ι → Cache ι
  | .table a => cache.insert k a
  | .nil | .bool _ | .str _ | .func _ | .other _ => cache

section Reload

variable (I : Interp ι)

/-- The first loop of `reload`. -/
def oldTables (oldModule : ℕ) : Lua ι (Cache ι) :=
  forPairs I (fun cache k v => pure (Cache.add cache k v)) (.table oldModule) ∅

/-- The metatable of the new value, if there is one, becomes the one of the old table. -/
def takeMetatable (v : ℕ) (new : Value ι) : Lua ι Unit := do
  let mt ← getmetatable new
  if mt.truthy then setmetatable v mt else pure ()

/-- The body of the second loop of `reload`. That `v` is a table is known. -/
def mergeEntry (newModule : ℕ) (k : Value ι) (v : ℕ) : Lua ι Unit := do
  let new ← index I (.table newModule) k
  let same ← equal I (.table v) new
  if same then pure ()
  else do
    let new ← index I (.table newModule) k
    takeMetatable v new
    let new ← index I (.table newModule) k
    forPairs I (fun _ newkey newvalue => setindex I (.table v) newkey newvalue) new ()
    setindex I (.table newModule) k (.table v)

/-- The second loop of `reload`. -/
def mergeEntries (newModule : ℕ) (oldCache : Cache ι) : List (Value ι) → Lua ι Unit
  | [] => pure ()
  | k :: ks => do
      (oldCache.lookup k).elim (pure ()) (mergeEntry I newModule k)
      mergeEntries newModule oldCache ks

/-- `loadfile` with the code cache of this Lua (`luaL_loadfilex`): `cache` has the functions of the files
that were loaded before, and `files` those that the files hold now. -/
def loadfilex (cache files : String → Option (ℕ → Lua ι Unit)) (filename : String) (env : ℕ) :
    Option (Lua ι Unit) :=
  ((cache filename).or (files filename)).map fun func => func env

/-- `reload`, with `Modules` and the function that `loadfile` returns for a path and an environment: that of
the file, or an old one that is in the code cache (`loadfilex`). -/
def reload (modules : String → Option ℕ) (loadfile : String → ℕ → Option (Lua ι Unit))
    (modname : String) (dir : Option String) : Lua ι (Option ℕ) :=
  match modules (dir.getD "server" ++ "/" ++ modname) with
  | none => pure none
  | some oldModule => do
      let oldCache ← oldTables I oldModule
      match loadfile (dir.getD "server" ++ "/" ++ modname ++ ".lua") oldModule with
      | none => throw .callNil
      | some func => do
          func
          let h ← get
          mergeEntries I oldModule oldCache (I.order h none oldCache.keys)
          pure (some oldModule)

end Reload

/-! ## Tables without metamethods -/

/-- The metamethods that a merge could meet. -/
def mergeEvents : List String := ["__newindex", "__eq", "__pairs", "__metatable"]

/-- Neither a value nor its metatable has one of these fields. -/
structure Plain (h : Heap ι) (v : Value ι) : Prop where
  /-- The value. -/
  fields : ∀ name ∈ mergeEvents, h.raw v (.str name) = .nil
  /-- The metatable. -/
  metamethods : ∀ name ∈ mergeEvents, h.metamethod v name = .nil

/-- `h'` is `h` with the metatable `mm`, if there is one, for the table `v`. -/
structure Adopted (v : ℕ) (mm : Option ℕ) (h h' : Heap ι) : Prop where
  /-- The other tables. -/
  tables : ∀ b, b ≠ v → h'.tables b = h.tables b
  /-- The metatables of other values. -/
  typeMetatable : h'.typeMetatable = h.typeMetatable
  /-- The metatable of `v`. -/
  metatable : (h'.tables v).metatable = mm.or (h.tables v).metatable
  /-- All fields. -/
  fields : ∀ b x, (h'.tables b).rawget x = (h.tables b).rawget x

/-- The metamethods of other values. -/
theorem Adopted.metamethod_of_ne {v : ℕ} {mm : Option ℕ} {h h' : Heap ι} (had : Adopted v mm h h')
    {w : Value ι} (hw : w ≠ .table v) (name : String) : h'.metamethod w name = h.metamethod w name := by
  have hmeta : h'.metatable w = h.metatable w := by
    cases w with
    | table b => rw [Heap.metatable, had.tables b fun hb => hw (congrArg Value.table hb), Heap.metatable]
    | nil | bool | str | func | other => exact congrFun had.typeMetatable _
  simp only [Heap.metamethod, hmeta, had.fields]

/-- The metamethods of the table are its own or those of the new metatable. -/
theorem Adopted.metamethod_self {v : ℕ} {new : Value ι} {h h' : Heap ι}
    (had : Adopted v (h.metatable new) h h') {name : String} (hnew : h.metamethod new name = .nil)
    (hv : h.metamethod (.table v) name = .nil) : h'.metamethod (.table v) name = .nil := by
  rw [Heap.metamethod] at hnew
  rw [Heap.metamethod, Heap.metatable] at hv
  rw [Heap.metamethod, Heap.metatable, had.metatable]
  cases hmm : h.metatable new with
  | none => simpa only [Option.none_or, had.fields] using hv
  | some mm =>
      rw [hmm] at hnew
      exact (had.fields mm _).trans hnew

/-- The metatable is taken where none is protected. -/
theorem takeMetatable_of_plain {h : Heap ι} {v : ℕ} {new : Value ι}
    (hnew : h.metamethod new "__metatable" = .nil)
    (hv : h.metamethod (.table v) "__metatable" = .nil) :
    ∃ h', takeMetatable v new h = (.ok (), h') ∧ Adopted v (h.metatable new) h h' := by
  have hget := getmetatable_of_plain hnew
  cases hmm : h.metatable new with
  | none =>
      rw [hmm] at hget
      exact ⟨h, bind_of_ok hget, fun _ _ => rfl, rfl, (Option.none_or).symm, fun _ _ => rfl⟩
  | some mm =>
      rw [hmm] at hget
      refine ⟨h.setMeta v (some mm), (bind_of_ok hget).trans (setmetatable_of_plain mm hv),
        fun b hb => Heap.update_ne h hb _, rfl, ?_, fun b x => ?_⟩
      · rw [Heap.setMeta, Heap.update_same]
        rfl
      · by_cases hb : b = v
        · rw [hb, Heap.setMeta, Heap.update_same]
          rfl
        · rw [Heap.setMeta, Heap.update_ne h hb]

/-- Only a table is added. -/
theorem lookup_add {cache : Cache ι} {k k' v : Value ι} {a : ℕ}
    (hcache : ∀ b, cache.lookup k' = some b → v = .table b) :
    (cache.add k' v).lookup k = some a ↔ (k = k' ∧ v = .table a) ∨ cache.lookup k = some a := by
  cases v with
  | table b =>
      by_cases hk : k = k'
      · subst hk
        rw [Cache.add, AList.lookup_insert]
        constructor
        · rintro ⟨⟩
          exact Or.inl ⟨rfl, rfl⟩
        · rintro (⟨-, ⟨⟩⟩ | h)
          · rfl
          · rw [Value.table.inj (hcache a h)]
      · rw [Cache.add, AList.lookup_insert_ne hk]
        exact ⟨Or.inr, fun h => h.resolve_left fun h => hk h.1⟩
  | nil | bool | str | func | other =>
      refine ⟨Or.inr, fun h => h.resolve_left fun h => ?_⟩
      cases h.2

/-- What the first loop finds. -/
theorem oldTables_of_plain (I : Interp ι) {h : Heap ι} {m : ℕ}
    (hpairs : h.metamethod (.table m) "__pairs" = .nil) :
    ∃ cache : Cache ι, oldTables I m h = (.ok cache, h) ∧
      ∀ k a, cache.lookup k = some a ↔ (h.tables m).rawget k = .table a := by
  -- the loop as a fold over the keys, from any cache
  have hfold : ∀ (ks : List (Value ι)) (cache : Cache ι),
      (∀ k a, cache.lookup k = some a → (h.tables m).rawget k = .table a) → ∀ k a,
      (ks.foldl (fun cache k => if (h.tables m).rawget k = .nil then cache
        else cache.add k ((h.tables m).rawget k)) cache).lookup k = some a ↔
      (k ∈ ks ∧ (h.tables m).rawget k = .table a) ∨ cache.lookup k = some a := by
    intro ks
    induction ks with
    | nil => exact fun cache _ k a => ⟨Or.inr, fun h => h.resolve_left fun h => List.not_mem_nil h.1⟩
    | cons k' ks ih =>
        intro cache hcache k a
        rw [List.foldl_cons]
        -- one key adds its table
        have hadd : ∀ k a, (if (h.tables m).rawget k' = .nil then cache
            else cache.add k' ((h.tables m).rawget k')).lookup k = some a ↔
              (k = k' ∧ (h.tables m).rawget k' = .table a) ∨ cache.lookup k = some a := by
          intro k a
          split
          · rename_i hnil
            refine ⟨Or.inr, fun h => h.resolve_left fun h => ?_⟩
            cases hnil.symm.trans h.2
          · exact lookup_add fun b => hcache k' b
        rw [ih _ fun k a hk => ?_, hadd, List.mem_cons]
        · constructor
          · rintro (⟨hk, ha⟩ | ⟨rfl, ha⟩ | h)
            · exact Or.inl ⟨Or.inr hk, ha⟩
            · exact Or.inl ⟨Or.inl rfl, ha⟩
            · exact Or.inr h
          · rintro (⟨rfl | hk, ha⟩ | h)
            · exact Or.inr (Or.inl ⟨rfl, ha⟩)
            · exact Or.inl ⟨hk, ha⟩
            · exact Or.inr (Or.inr h)
        · rcases (hadd k a).mp hk with ⟨rfl, ha⟩ | h
          · exact ha
          · exact hcache k a h
  refine ⟨_, (forPairs_of_plain I hpairs).trans (eachKey_pure _ _ _), fun k a => ?_⟩
  rw [hfold _ _ fun k a h => ?_]
  · constructor
    · rintro (⟨-, ha⟩ | h)
      · exact ha
      · rw [AList.lookup_empty] at h
        cases h
    · intro ha
      refine Or.inl ⟨(I.order_perm _ _ _).mem_iff.mpr (Table.mem_keys.mpr ?_), ha⟩
      rw [ha]
      exact fun h => by cases h
  · rw [AList.lookup_empty] at h
    cases h

/-! ## Merging -/

/-- What a reload does to the old table `T` of a global whose value is the table `N` once the file has
run: the fields of `N` are in it, and its metatable is that of `N` if there is one. -/
structure MergedTable (h₁ h : Heap ι) (T N : ℕ) : Prop where
  /-- The metatable. -/
  metatable : (h.tables T).metatable = (h₁.tables N).metatable.or (h₁.tables T).metatable
  /-- The fields. -/
  fields : ∀ x, (h.tables T).rawget x
    = if (h₁.tables N).rawget x ≠ .nil then (h₁.tables N).rawget x else (h₁.tables T).rawget x

/-- The merges do not get into one another's way: `h` is the heap before the file has run, `h₁` the one
after it, and `m` the module. -/
structure Mergeable (m : ℕ) (h h₁ : Heap ι) : Prop where
  /-- The file takes no global away that held a table. -/
  kept : ∀ k T, (h.tables m).rawget k = .table T → (h₁.tables m).rawget k ≠ .nil
  /-- Globals that held one table have one value. -/
  oneNew : ∀ k k' T, (h.tables m).rawget k = .table T → (h.tables m).rawget k' = .table T →
    (h₁.tables m).rawget k = (h₁.tables m).rawget k'
  /-- No global has the old table of another one. -/
  notOther : ∀ k k' T T', (h.tables m).rawget k = .table T → (h.tables m).rawget k' = .table T' →
    (h₁.tables m).rawget k = .table T' → T = T'
  /-- No global held the table of the module. -/
  oldNotSelf : ∀ k, (h.tables m).rawget k ≠ .table m
  /-- Nor does one that held a table. -/
  newNotSelf : ∀ k T, (h.tables m).rawget k = .table T → (h₁.tables m).rawget k ≠ .table m
  /-- The old tables have no metamethods that a merge could meet. -/
  oldPlain : ∀ k T, (h.tables m).rawget k = .table T → Plain h₁ (.table T)
  /-- Nor do the new values. -/
  newPlain : ∀ k T, (h.tables m).rawget k = .table T → Plain h₁ ((h₁.tables m).rawget k)

/-- The merges that are done, in the heap `h'`. -/
structure Merged (m : ℕ) (h h₁ : Heap ι) (done : List (Value ι)) (h' : Heap ι) : Prop where
  /-- The merges are of globals that held a table. -/
  old : ∀ k ∈ done, ∃ T, (h.tables m).rawget k = .table T
  /-- The metatables of values that are not tables. -/
  typeMetatable : h'.typeMetatable = h₁.typeMetatable
  /-- The tables that had no part in it. -/
  tables : ∀ a, a ≠ m → (∀ k ∈ done, (h.tables m).rawget k ≠ .table a) → h'.tables a = h₁.tables a
  /-- The metatable of the module. -/
  metatable : (h'.tables m).metatable = (h₁.tables m).metatable
  /-- The globals. -/
  globals : ∀ k, (h'.tables m).rawget k
    = if k ∈ done then (h.tables m).rawget k else (h₁.tables m).rawget k
  /-- The merged tables. -/
  merged : ∀ k ∈ done, ∀ T, (h.tables m).rawget k = .table T →
    ∃ N, (h₁.tables m).rawget k = .table N ∧ MergedTable h₁ h' T N

namespace Merged

variable {m : ℕ} {h h₁ h' : Heap ι} {done : List (Value ι)}

/-- Before the first merge. -/
theorem nil : Merged m h h₁ [] h₁ where
  old _ hk := absurd hk List.not_mem_nil
  typeMetatable := rfl
  tables _ _ _ := rfl
  metatable := rfl
  globals _ := (if_neg List.not_mem_nil).symm
  merged _ hk := absurd hk List.not_mem_nil

variable (hm : Mergeable m h h₁) (hd : Merged m h h₁ done h')
include hm hd

/-- An old table is as it was, or it was merged already, under another name. -/
theorem table_cases {k : Value ι} {T : ℕ} (hk : (h.tables m).rawget k = .table T) :
    h'.tables T = h₁.tables T ∨
      ∃ N, (h₁.tables m).rawget k = .table N ∧ MergedTable h₁ h' T N := by
  by_cases hdone : ∃ k' ∈ done, (h.tables m).rawget k' = .table T
  · obtain ⟨k', hk', hold⟩ := hdone
    obtain ⟨N, hN, hmerged⟩ := hd.merged k' hk' T hold
    exact Or.inr ⟨N, (hm.oneNew k k' T hk hold).trans hN, hmerged⟩
  · refine Or.inl (hd.tables T ?_ fun k' hk' hold => hdone ⟨k', hk', hold⟩)
    rintro rfl
    exact hm.oldNotSelf k hk

/-- The metatables of the tables that are merged get no metamethod that a merge could meet. -/
theorem metamethod_nil {mm : ℕ} {name : String} (hname : name ∈ mergeEvents)
    (hplain : (h₁.tables mm).rawget (.str name) = .nil) :
    (h'.tables mm).rawget (.str name) = .nil := by
  by_cases hself : mm = m
  · subst hself
    rw [hd.globals, if_neg]
    · exact hplain
    · intro hdone
      obtain ⟨T, hT⟩ := hd.old _ hdone
      exact hm.kept _ T hT hplain
  · by_cases hdone : ∃ k ∈ done, (h.tables m).rawget k = .table mm
    · obtain ⟨k, hk, hold⟩ := hdone
      obtain ⟨N, hN, hmerged⟩ := hd.merged k hk mm hold
      have hnew : (h₁.tables N).rawget (.str name) = .nil := by
        have hfields := (hm.newPlain k mm hold).fields name hname
        rwa [hN] at hfields
      rw [hmerged.fields, if_neg (not_not_intro hnew)]
      exact hplain
    · rw [hd.tables mm hself fun k hk hold => hdone ⟨k, hk, hold⟩]
      exact hplain

/-- A value keeps having none. -/
theorem metamethod_of_eq {w : Value ι} {name : String} (hname : name ∈ mergeEvents)
    (hmeta : h'.metatable w = h₁.metatable w) (hplain : h₁.metamethod w name = .nil) :
    h'.metamethod w name = .nil := by
  rw [Heap.metamethod, hmeta]
  rw [Heap.metamethod] at hplain
  cases hmm : h₁.metatable w with
  | none => rfl
  | some mm =>
      rw [hmm] at hplain
      exact hd.metamethod_nil hm hname hplain

/-- A new value is as the file left it. -/
theorem new_eq {k : Value ι} {T : ℕ} (hk : (h.tables m).rawget k = .table T) {N : ℕ}
    (hN : (h₁.tables m).rawget k = .table N) (hne : N ≠ T) : h'.tables N = h₁.tables N := by
  refine hd.tables N ?_ fun k' hk' hold => ?_
  · rintro rfl
    exact hm.newNotSelf k T hk hN
  · exact hne (hm.notOther k k' T N hk hold hN).symm

theorem metatable_new {k : Value ι} {T : ℕ} (hk : (h.tables m).rawget k = .table T)
    (hne : (h₁.tables m).rawget k ≠ .table T) :
    h'.metatable ((h₁.tables m).rawget k) = h₁.metatable ((h₁.tables m).rawget k) := by
  cases hN : (h₁.tables m).rawget k with
  | table N =>
      rw [Heap.metatable, hd.new_eq hm hk hN fun heq => hne (heq ▸ hN), Heap.metatable]
  | nil | bool | str | func | other => exact congrFun hd.typeMetatable _

/-- An old table keeps having no metamethod that a merge could meet. -/
theorem metamethod_old {k : Value ι} {T : ℕ} (hk : (h.tables m).rawget k = .table T) {name : String}
    (hname : name ∈ mergeEvents) : h'.metamethod (.table T) name = .nil := by
  rcases hd.table_cases hm hk with hsame | ⟨N, hN, hmerged⟩
  · refine hd.metamethod_of_eq hm hname ?_ ((hm.oldPlain k T hk).metamethods name hname)
    rw [Heap.metatable, hsame, Heap.metatable]
  · have hnew := (hm.newPlain k T hk).metamethods name hname
    have hold := (hm.oldPlain k T hk).metamethods name hname
    rw [hN, Heap.metamethod, Heap.metatable] at hnew
    rw [Heap.metamethod, Heap.metatable] at hold
    rw [Heap.metamethod, Heap.metatable, hmerged.metatable]
    cases hmm : (h₁.tables N).metatable with
    | some mm =>
        rw [hmm] at hnew
        exact hd.metamethod_nil hm hname hnew
    | none =>
        rw [Option.none_or]
        cases hmm' : (h₁.tables T).metatable with
        | some mm =>
            rw [hmm'] at hold
            exact hd.metamethod_nil hm hname hold
        | none => rfl

end Merged

/-! ## One merge -/

section Step

variable (I : Interp ι) {m : ℕ} {h h₁ h' : Heap ι} {done : List (Value ι)}

theorem mem_mergeEvents_newindex : "__newindex" ∈ mergeEvents := by decide

theorem mem_mergeEvents_eq : "__eq" ∈ mergeEvents := by decide

theorem mem_mergeEvents_pairs : "__pairs" ∈ mergeEvents := by decide

theorem mem_mergeEvents_metatable : "__metatable" ∈ mergeEvents := by decide

/-- The merge of a global whose value is its old table: nothing is done. -/
theorem mergeEntry_same {k : Value ι} {T : ℕ} (hraw : (h'.tables m).rawget k = .table T) :
    mergeEntry I m k T h' = (.ok (), h') := by
  have hne : h'.raw (.table m) k ≠ .nil := by
    rw [Heap.raw, hraw]
    exact fun heq => by cases heq
  have hindex := index_of_raw I hne
  rw [Heap.raw, hraw] at hindex
  exact (bind_of_ok hindex).trans ((bind_of_ok (equal_self I _)).trans rfl)

/-- The merge of a global with another value, up to the loop over the new value. -/
theorem mergeEntry_adopt {k new : Value ι} {T : ℕ} (hraw : (h'.tables m).rawget k = new)
    (hnil : new ≠ .nil) (hne : Value.table T ≠ new)
    (hT : ∀ name ∈ mergeEvents, h'.metamethod (.table T) name = .nil)
    (hnew : ∀ name ∈ mergeEvents, h'.metamethod new name = .nil) :
    ∃ h₂, Adopted T (h'.metatable new) h' h₂ ∧ mergeEntry I m k T h'
      = (do
          forPairs I (fun _ newkey newvalue => setindex I (.table T) newkey newvalue) new ()
          setindex I (.table m) k (.table T) : Lua ι Unit) h₂ := by
  have hindex : ∀ g : Heap ι, (g.tables m).rawget k = new → index I (.table m) k g = (.ok new, g) := by
    intro g hg
    have hgne : g.raw (.table m) k ≠ .nil := by
      rw [Heap.raw, hg]
      exact hnil
    have hindex := index_of_raw I hgne
    rwa [Heap.raw, hg] at hindex
  have hequal := equal_of_ne I hne (hT _ mem_mergeEvents_eq) (hnew _ mem_mergeEvents_eq)
  obtain ⟨h₂, htake, hadopted⟩ :=
    takeMetatable_of_plain (hnew _ mem_mergeEvents_metatable) (hT _ mem_mergeEvents_metatable)
  refine ⟨h₂, hadopted, ?_⟩
  have hraw₂ : (h₂.tables m).rawget k = new := (hadopted.fields m k).trans hraw
  refine (bind_of_ok (hindex h' hraw)).trans ((bind_of_ok hequal).trans ?_)
  exact (bind_of_ok (hindex h' hraw)).trans ((bind_of_ok htake).trans (bind_of_ok (hindex h₂ hraw₂)))

/-- The value of a global that was not merged yet. -/
theorem Merged.globals_new (hd : Merged m h h₁ done h') {k : Value ι} (hk : k ∉ done) :
    (h'.tables m).rawget k = (h₁.tables m).rawget k := by
  rw [hd.globals, if_neg hk]

variable (hm : Mergeable m h h₁) (hd : Merged m h h₁ done h')
include hm hd

/-- A value that is no table, for a global that held one. -/
theorem mergeEntry_raises {k : Value ι} {T : ℕ} (hk : k ∉ done)
    (hold : (h.tables m).rawget k = .table T)
    (hnew : ∀ N, (h₁.tables m).rawget k ≠ .table N) :
    ∃ e h'', mergeEntry I m k T h' = (.error e, h'') := by
  have hmeta : ∀ name ∈ mergeEvents, h'.metamethod ((h₁.tables m).rawget k) name = .nil :=
    fun name hname => hd.metamethod_of_eq hm hname (hd.metatable_new hm hold (hnew T))
      ((hm.newPlain k T hold).metamethods name hname)
  obtain ⟨h₂, hadopted, hrun⟩ := mergeEntry_adopt I (hd.globals_new hk) (hm.kept k T hold)
    (fun heq => hnew T heq.symm) (fun name hname => hd.metamethod_old hm hold hname) hmeta
  have htable : ((h₁.tables m).rawget k).isTable = false := by
    cases hN : (h₁.tables m).rawget k with
    | table N => exact absurd hN (hnew N)
    | nil | bool | str | func | other => rfl
  have hpairs : h₂.metamethod ((h₁.tables m).rawget k) "__pairs" = .nil :=
    (hadopted.metamethod_of_ne (hnew T) _).trans (hmeta _ mem_mergeEvents_pairs)
  exact ⟨_, _, hrun.trans (bind_of_error (forPairs_of_not_table I htable hpairs))⟩

/-- What a merge of the global `k`, from the table `N` into the table `T`, does to the heap. -/
structure MergeStep (m : ℕ) (k : Value ι) (T N : ℕ) (h₁ h' h'' : Heap ι) : Prop where
  /-- The other tables. -/
  tables : ∀ b, b ≠ T → b ≠ m → h''.tables b = h'.tables b
  /-- The metatables of values that are not tables. -/
  typeMetatable : h''.typeMetatable = h'.typeMetatable
  /-- The metatable of the module. -/
  metatable : (h''.tables m).metatable = (h'.tables m).metatable
  /-- The globals. -/
  globals : ∀ k', (h''.tables m).rawget k' = if k' = k then .table T else (h'.tables m).rawget k'
  /-- The old table. -/
  merged : MergedTable h₁ h'' T N

/-- One more merge is done. -/
theorem Merged.cons {h'' : Heap ι} {k : Value ι} {T N : ℕ} (hold : (h.tables m).rawget k = .table T)
    (hN : (h₁.tables m).rawget k = .table N) (hstep : MergeStep m k T N h₁ h' h'') :
    Merged m h h₁ (k :: done) h'' := by
  refine ⟨List.forall_mem_cons.mpr ⟨⟨T, hold⟩, hd.old⟩,
    hstep.typeMetatable.trans hd.typeMetatable, fun a ha hdone => ?_,
    hstep.metatable.trans hd.metatable, fun k' => ?_, fun k' hk' T' hT' => ?_⟩
  · obtain ⟨hk', hdone⟩ := List.forall_mem_cons.mp hdone
    have haT : a ≠ T := by
      rintro rfl
      exact hk' hold
    exact (hstep.tables a haT ha).trans (hd.tables a ha hdone)
  · rw [hstep.globals, hd.globals]
    by_cases hkk : k' = k
    · subst hkk
      rw [if_pos rfl, if_pos List.mem_cons_self, hold]
    · simp only [List.mem_cons, hkk, false_or, if_false]
  · by_cases hTT : T' = T
    · -- another name of the same table
      subst hTT
      exact ⟨N, (hm.oneNew k' k T' hT' hold).trans hN, hstep.merged⟩
    · obtain ⟨N', hN', hmerged⟩ := hd.merged k'
        ((List.mem_cons.mp hk').resolve_left fun heq => hTT
          (Value.table.inj (hT'.symm.trans (heq ▸ hold)))) T' hT'
      have hT'm : T' ≠ m := by
        rintro rfl
        exact hm.oldNotSelf k' hT'
      have htable := hstep.tables T' hTT hT'm
      exact ⟨N', hN', htable ▸ hmerged.metatable, htable ▸ hmerged.fields⟩

/-- The merge of a global that still holds its old table. -/
theorem mergeStep_same {k : Value ι} {T : ℕ} (hk : k ∉ done)
    (hold : (h.tables m).rawget k = .table T) (hN : (h₁.tables m).rawget k = .table T) :
    mergeEntry I m k T h' = (.ok (), h') ∧ MergeStep m k T T h₁ h' h' := by
  have hraw : (h'.tables m).rawget k = .table T := (hd.globals_new hk).trans hN
  refine ⟨mergeEntry_same I hraw, fun _ _ _ => rfl, rfl, rfl, fun k' => ?_, ?_⟩
  · split
    · rename_i hkk
      rw [hkk, hraw]
    · rfl
  · rcases hd.table_cases hm hold with hsame | ⟨N', hN', hmerged⟩
    · refine ⟨?_, fun x => ?_⟩
      · rw [hsame, Option.or_self]
      · rw [hsame, ite_self]
    · obtain rfl := Value.table.inj (hN.symm.trans hN')
      exact hmerged

/-- The merge of a global that holds another table. -/
theorem mergeStep_copy {k : Value ι} {T N : ℕ} (hk : k ∉ done)
    (hold : (h.tables m).rawget k = .table T) (hN : (h₁.tables m).rawget k = .table N)
    (hne : N ≠ T) :
    ∃ h'', mergeEntry I m k T h' = (.ok (), h'') ∧ MergeStep m k T N h₁ h' h'' := by
  have hTm : T ≠ m := by
    rintro rfl
    exact hm.oldNotSelf k hold
  have htables : (Value.table N : Value ι) ≠ .table T := fun heq => hne (Value.table.inj heq)
  have hraw : (h'.tables m).rawget k = .table N := (hd.globals_new hk).trans hN
  have hNold : h'.tables N = h₁.tables N := hd.new_eq hm hold hN hne
  have hmetaN : ∀ name ∈ mergeEvents, h'.metamethod (.table N) name = .nil := by
    intro name hname
    rw [← hN]
    exact hd.metamethod_of_eq hm hname (hd.metatable_new hm hold (hN ▸ htables))
      ((hm.newPlain k T hold).metamethods name hname)
  have hmetaT : ∀ name ∈ mergeEvents, h'.metamethod (.table T) name = .nil :=
    fun name hname => hd.metamethod_old hm hold hname
  have hkne : k ≠ .nil := by
    rintro rfl
    rw [Table.rawget_nil] at hraw
    cases hraw
  -- the metatable, the fields, the global
  obtain ⟨h₂, had, hrun⟩ := mergeEntry_adopt I hraw (fun heq => by cases heq) htables.symm hmetaT hmetaN
  have hNindex : (h₂.tables N).rawget (.str "__newindex") = .nil := by
    have hplain := (hm.newPlain k T hold).fields _ mem_mergeEvents_newindex
    rw [hN] at hplain
    rw [had.fields, hNold]
    exact hplain
  obtain ⟨h₃, ks, hloop, hcopied, hfields⟩ := forPairs_copy I hne
    ((had.metamethod_of_ne htables _).trans (hmetaN _ mem_mergeEvents_pairs))
    (had.metamethod_self (hmetaN _ mem_mergeEvents_newindex) (hmetaT _ mem_mergeEvents_newindex))
    hNindex
  have hsame : ∀ b, b ≠ T → h₃.tables b = h'.tables b :=
    fun b hb => (hcopied.tables b hb).trans (had.tables b hb)
  have hraw₃ : h₃.raw (.table m) k ≠ .nil := by
    rw [Heap.raw, hsame m hTm.symm, hraw]
    exact fun heq => by cases heq
  have hset := setindex_of_plain I (x := .table T) hkne (Or.inl hraw₃)
  have hT : (h₃.set m k (.table T) hkne).tables T = h₃.tables T := Heap.update_ne h₃ hTm _
  refine ⟨h₃.set m k (.table T) hkne, hrun.trans ((bind_of_ok hloop).trans hset),
    fun b hb hbm => (Heap.update_ne h₃ hbm _).trans (hsame b hb),
    hcopied.typeMetatable.trans had.typeMetatable, ?_, fun k' => ?_, ?_, fun x => ?_⟩
  · rw [Heap.set, Heap.update_same, Table.rawset_metatable, hsame m hTm.symm]
  · rw [Heap.set, Heap.update_same, Table.rawget_rawset, hsame m hTm.symm]
  · rw [hT, hcopied.metatable, had.metatable, Heap.metatable, hNold]
    rcases hd.table_cases hm hold with hTold | ⟨N', hN', hmerged⟩
    · rw [hTold]
    · obtain rfl := Value.table.inj (hN.symm.trans hN')
      rw [hmerged.metatable, ← Option.or_assoc, Option.or_self]
  · rw [hT, hfields, had.fields, had.fields, hNold]
    rcases hd.table_cases hm hold with hTold | ⟨N', hN', hmerged⟩
    · rw [hTold]
    · obtain rfl := Value.table.inj (hN.symm.trans hN')
      rw [hmerged.fields]
      split
      · rfl
      · rfl

/-- **A merge** of a global that holds a table. -/
theorem mergeEntry_merges {k : Value ι} {T N : ℕ} (hk : k ∉ done)
    (hold : (h.tables m).rawget k = .table T) (hN : (h₁.tables m).rawget k = .table N) :
    ∃ h'', mergeEntry I m k T h' = (.ok (), h'') ∧ Merged m h h₁ (k :: done) h'' := by
  by_cases hne : N = T
  · subst hne
    obtain ⟨hrun, hstep⟩ := mergeStep_same I hm hd hk hold hN
    exact ⟨h', hrun, hd.cons hm hold hN hstep⟩
  · obtain ⟨h'', hrun, hstep⟩ := mergeStep_copy I hm hd hk hold hN hne
    exact ⟨h'', hrun, hd.cons hm hold hN hstep⟩

end Step

/-! ## The reload -/

section Loop

variable (I : Interp ι) {m : ℕ} {h h₁ h' : Heap ι} {done : List (Value ι)} {cache : Cache ι}

/-- **The second loop** merges all globals that held a table, or raises because one of them holds none
any more. -/
theorem mergeEntries_merges (hm : Mergeable m h h₁)
    (hcache : ∀ k a, cache.lookup k = some a ↔ (h.tables m).rawget k = .table a)
    {ks : List (Value ι)} (hnodup : ks.Nodup) (hks : ∀ k ∈ ks, k ∈ cache) (hdone : ∀ k ∈ ks, k ∉ done)
    (hd : Merged m h h₁ done h') :
    (∃ h'' done', mergeEntries I m cache ks h' = (.ok (), h'') ∧ Merged m h h₁ done' h'' ∧
      ∀ k, k ∈ ks ∨ k ∈ done → k ∈ done') ∨
    (∃ e h'', mergeEntries I m cache ks h' = (.error e, h'')) ∧
      ∃ k ∈ ks, ∀ N, (h₁.tables m).rawget k ≠ .table N := by
  induction ks generalizing h' done with
  | nil => exact Or.inl ⟨h', done, rfl, hd, fun k hk => hk.resolve_left List.not_mem_nil⟩
  | cons k ks ih =>
      obtain ⟨hkks, hnodup⟩ := List.nodup_cons.mp hnodup
      obtain ⟨hkcache, hks⟩ := List.forall_mem_cons.mp hks
      obtain ⟨hkdone, hdone⟩ := List.forall_mem_cons.mp hdone
      obtain ⟨T, hT⟩ := Option.isSome_iff_exists.mp (AList.lookup_isSome.mpr hkcache)
      have hold := (hcache k T).mp hT
      have hrun : mergeEntries I m cache (k :: ks) h' = (do
          mergeEntry I m k T
          mergeEntries I m cache ks : Lua ι Unit) h' := by
        rw [mergeEntries, hT]
        rfl
      rw [hrun]
      -- the global holds a table again, or the merge of it raises
      by_cases hN : ∃ N, (h₁.tables m).rawget k = .table N
      · obtain ⟨N, hN⟩ := hN
        obtain ⟨h'', hentry, hd'⟩ := mergeEntry_merges I hm hd hkdone hold hN
        rw [bind_of_ok hentry]
        -- no key comes twice
        have hrest : ∀ k' ∈ ks, k' ∉ k :: done := fun k' hk' hmem =>
          (List.mem_cons.mp hmem).elim (fun heq => hkks (heq ▸ hk')) (hdone k' hk')
        rcases ih hnodup hks hrest hd' with ⟨h₂, done', hloop, hd₂, hmem⟩ | ⟨herror, k', hk', hN'⟩
        · refine Or.inl ⟨h₂, done', hloop, hd₂, fun k' hk' => hmem k' ?_⟩
          rcases hk' with hk' | hk'
          · rcases List.mem_cons.mp hk' with rfl | hk'
            · exact Or.inr List.mem_cons_self
            · exact Or.inl hk'
          · exact Or.inr (List.mem_cons_of_mem _ hk')
        · exact Or.inr ⟨herror, k', List.mem_cons_of_mem _ hk', hN'⟩
      · have hN' : ∀ N, (h₁.tables m).rawget k ≠ .table N := fun N heq => hN ⟨N, heq⟩
        obtain ⟨e, h'', hentry⟩ := mergeEntry_raises I hm hd hkdone hold hN'
        exact Or.inr ⟨⟨e, h'', bind_of_error hentry⟩, k, List.mem_cons_self, hN'⟩

end Loop

/-- What a reload of the module `m` leaves behind: `h` is the heap before, `h₁` the one after the file has
run, and `h₂` the one after the reload. -/
structure Reloaded (m : ℕ) (h h₁ h₂ : Heap ι) : Prop where
  /-- A global that held a table holds the same table. -/
  identity : ∀ k T, (h.tables m).rawget k = .table T → (h₂.tables m).rawget k = .table T
  /-- The table that the new version gave such a global is merged into it. -/
  merged : ∀ k T, (h.tables m).rawget k = .table T →
    ∃ N, (h₁.tables m).rawget k = .table N ∧ MergedTable h₁ h₂ T N
  /-- Any other global has its new value. -/
  others : ∀ k, (∀ T, (h.tables m).rawget k ≠ .table T) →
    (h₂.tables m).rawget k = (h₁.tables m).rawget k
  /-- Any other table is as the file left it. -/
  tables : ∀ a, a ≠ m → (∀ k, (h.tables m).rawget k ≠ .table a) → h₂.tables a = h₁.tables a

/-- All merges are done. -/
theorem Merged.reloaded {m : ℕ} {h h₁ h₂ : Heap ι} {done : List (Value ι)}
    (hd : Merged m h h₁ done h₂) (hall : ∀ k T, (h.tables m).rawget k = .table T → k ∈ done) :
    Reloaded m h h₁ h₂ where
  identity k T hold := by rw [hd.globals, if_pos (hall k T hold), hold]
  merged k T hold := hd.merged k (hall k T hold) T hold
  others k hk := by
    rw [hd.globals, if_neg]
    intro hdone
    obtain ⟨T, hT⟩ := hd.old k hdone
    exact hk T hT
  tables a ha hold := hd.tables a ha fun k _ => hold k

section Top

variable (I : Interp ι) {modules : String → Option ℕ}
  {loadfile : String → ℕ → Option (Lua ι Unit)} {modname : String} {dir : Option String} {m : ℕ}

end Top

section Runs

/-- Functions raise, and `next` goes through the keys as they are listed. -/
def noFunctions : Interp ℕ := ⟨fun _ _ => throw .callNil, fun _ _ ks => ks, fun _ _ ks => .refl ks, 0⟩

/-- The heap in which some tables have some fields, and the module 0 the metatable 1 with the field
`__index`. -/
def heapOf (fields : List (ℕ × String × Value ℕ)) : Heap ℕ :=
  ((1, "__index", .table 2) :: fields).foldl
    (fun h x => h.set x.1 (.str x.2.1) x.2.2 (fun heq => by cases heq))
    (Heap.setMeta ⟨fun _ => Table.empty, fun _ => none⟩ 0 (some 1))

/-- Reload the module 0, whose new file is `func`. -/
def reloadWith (func : Lua ℕ Unit) (h : Heap ℕ) : Except (LuaError ℕ) (Option ℕ) × Heap ℕ :=
  reload noFunctions (fun _ => some 0) (fun _ _ => some func) "scene/env" none h

/-- The field of a table in a heap. -/
def fieldOf (h : Heap ℕ) (a : ℕ) (k : String) : Value ℕ := (h.tables a).rawget (.str k)

/-- A file that assigns a global and raises. -/
def raisingFile : Lua ℕ Unit := do
  rawset 0 (.str "count") (.other 2)
  throw (.thrown .nil)

/-- A file that gives two globals a table each. -/
def twoTables : Lua ℕ Unit := do
  rawset 4 (.str "x") (.other 1)
  rawset 0 (.str "a") (.table 4)
  rawset 5 (.str "x") (.other 2)
  rawset 0 (.str "b") (.table 5)

/-- A file that gives a global a table with a metatable that has `__newindex`. -/
def guardedTable : Lua ℕ Unit := do
  rawset 5 (.str "__newindex") (.table 6)
  rawset 4 (.str "x") (.other 1)
  setmetatable 4 (.table 5)
  rawset 0 (.str "a") (.table 4)

/-- A file that assigns a number to a global. -/
def countFile (n : ℕ) (env : ℕ) : Lua ℕ Unit := rawset env (.str "count") (.other n)

/-- Reload the module 0, of which version 1 is in the code cache, and the file has version 2. -/
def reloadCached (h : Heap ℕ) : Except (LuaError ℕ) (Option ℕ) × Heap ℕ :=
  reload noFunctions (fun _ => some 0)
    (loadfilex (fun _ => some (countFile 1)) fun _ => some (countFile 2)) "scene/env" none h

/-- A file that gives a global a new table and another one a new number. -/
def newTable : Lua ℕ Unit := do
  rawset 4 (.str "y") (.other 2)
  rawset 0 (.str "list") (.table 4)
  rawset 0 (.str "count") (.other 2)

/-- A module with a table and a number. -/
def listAndCount : Heap ℕ :=
  heapOf [(0, "list", .table 3), (3, "x", .other 1), (0, "count", .other 1)]

end Runs

end FrameSync.Server
