import Mathlib.Data.List.AList
import Mathlib.Tactic.Common

/-! # The tables of Lua

Values, tables and metatables of Lua 5.3, and what a program does to them: indexing and assignment with
`__index` and `__newindex`, comparison with `__eq`, `getmetatable`, `setmetatable` and the loop over
`pairs`. What a function does when it is called, and the order in which `next` goes through a table, are
open (`Interp`). The lemmas are about the plain case, where no metamethod is met. -/

namespace FrameSync

namespace LuaHeap

variable {ι : Type}

/-! ## Values, tables and the heap -/

/-- A value. A table is a reference. -/
inductive Value (ι : Type)
  /-- `nil` -/
  | nil
  /-- A boolean. -/
  | bool (b : Bool)
  /-- A string. -/
  | str (s : String)
  /-- A table. -/
  | table (a : ℕ)
  /-- A function. -/
  | func (f : ι)
  /-- A number, a userdata or a thread. -/
  | other (o : ι)
  deriving Repr, DecidableEq

/-- What counts as true. -/
def Value.truthy : Value ι → Bool
  | .nil => false
  | .bool b => b
  | .str _ | .table _ | .func _ | .other _ => true

/-- `type(v) == 'table'` -/
def Value.isTable : Value ι → Bool
  | .table _ => true
  | .nil | .bool _ | .str _ | .func _ | .other _ => false

/-- An error. -/
inductive LuaError (ι : Type)
  /-- A call of `error`. -/
  | thrown (v : Value ι)
  /-- "attempt to call a nil value" -/
  | callNil
  /-- "attempt to index a %s value" -/
  | indexOther
  /-- "index is nil" -/
  | nilKey
  /-- "'__index' chain too long; possibly a loop", and the same of `__newindex`. -/
  | chainTooLong
  /-- "bad argument #2 to 'setmetatable' (nil or table expected)" -/
  | badMetatable
  /-- "cannot change a protected metatable" -/
  | protectedMetatable
  /-- "bad argument #1 to 'for iterator' (table expected, got %s)" -/
  | notTable
  /-- A loop over a user's iterator has not ended within the rounds of the model. -/
  | endless
  deriving Repr, DecidableEq

variable [DecidableEq ι]

/-- A table. Nil is neither a key nor a value in it. -/
structure Table (ι : Type) [DecidableEq ι] where
  /-- The fields. -/
  fields : AList fun _ : Value ι => Value ι
  /-- The metatable. -/
  metatable : Option ℕ
  /-- No key is nil. -/
  key_ne_nil : Value.nil ∉ fields
  /-- No value is nil. -/
  val_ne_nil : ∀ k, fields.lookup k ≠ some .nil

namespace Table

/-- `{}` -/
def empty : Table ι := ⟨∅, none, AList.notMem_empty _, fun _ h => Option.some_ne_none _ h.symm⟩

/-- `rawget` -/
def rawget (t : Table ι) (k : Value ι) : Value ι := (t.fields.lookup k).getD .nil

/-- `rawset` -/
def rawset (t : Table ι) (k x : Value ι) (hk : k ≠ .nil) : Table ι :=
  if hx : x = .nil then
    { t with
      fields := t.fields.erase k
      key_ne_nil := fun h => t.key_ne_nil (AList.mem_erase.mp h).2
      val_ne_nil := fun k' h => by
        by_cases hkk : k' = k
        · rw [hkk, AList.lookup_erase] at h
          cases h
        · rw [AList.lookup_erase_ne hkk] at h
          exact t.val_ne_nil k' h }
  else
    { t with
      fields := t.fields.insert k x
      key_ne_nil := fun h => ((AList.mem_insert _).mp h).elim (fun heq => hk heq.symm) t.key_ne_nil
      val_ne_nil := fun k' h => by
        by_cases hkk : k' = k
        · rw [hkk, AList.lookup_insert] at h
          exact hx (Option.some.inj h)
        · rw [AList.lookup_insert_ne hkk] at h
          exact t.val_ne_nil k' h }

@[simp] theorem rawset_metatable (t : Table ι) (k x : Value ι) (hk : k ≠ .nil) :
    (t.rawset k x hk).metatable = t.metatable := by
  rw [rawset]
  split
  · rfl
  · rfl

/-- What is read after a write. -/
theorem rawget_rawset (t : Table ι) (k x : Value ι) (hk : k ≠ .nil) (k' : Value ι) :
    (t.rawset k x hk).rawget k' = if k' = k then x else t.rawget k' := by
  rw [rawset]
  by_cases hkk : k' = k
  · subst hkk
    rw [if_pos rfl]
    split
    · rename_i hx
      rw [hx, rawget, AList.lookup_erase]
      rfl
    · rw [rawget, AList.lookup_insert]
      rfl
  · rw [if_neg hkk]
    split
    · rw [rawget, AList.lookup_erase_ne hkk, rawget]
    · rw [rawget, AList.lookup_insert_ne hkk, rawget]

/-- The keys are what is there. -/
theorem mem_keys {t : Table ι} {k : Value ι} : k ∈ t.fields.keys ↔ t.rawget k ≠ .nil := by
  rw [← AList.mem_keys, rawget, ← AList.lookup_isSome]
  have hval := t.val_ne_nil k
  cases hk : t.fields.lookup k with
  | none => simp
  | some x =>
      refine iff_of_true rfl fun hx => hval ?_
      rw [hk]
      exact congrArg some hx

@[simp] theorem rawget_nil (t : Table ι) : t.rawget .nil = .nil := by
  by_contra h
  exact t.key_ne_nil (AList.mem_keys.mpr (mem_keys.mpr h))

end Table

/-- The heap. -/
structure Heap (ι : Type) [DecidableEq ι] where
  /-- The tables. -/
  tables : ℕ → Table ι
  /-- The metatables of values that are not tables. -/
  typeMetatable : Value ι → Option ℕ

namespace Heap

/-- The metatable of a value. -/
def metatable (h : Heap ι) : Value ι → Option ℕ
  | .table a => (h.tables a).metatable
  | v => h.typeMetatable v

/-- A field of the metatable. -/
def metamethod (h : Heap ι) (v : Value ι) (name : String) : Value ι :=
  match h.metatable v with
  | some m => (h.tables m).rawget (.str name)
  | none => .nil

/-- The field of a table; of other values none. -/
def raw (h : Heap ι) (v k : Value ι) : Value ι :=
  match v with
  | .table a => (h.tables a).rawget k
  | _ => .nil

/-- A table changes. -/
def update (h : Heap ι) (a : ℕ) (t : Table ι) : Heap ι :=
  { h with tables := fun b => if b = a then t else h.tables b }

/-- A field is assigned. -/
def set (h : Heap ι) (a : ℕ) (k x : Value ι) (hk : k ≠ .nil) : Heap ι :=
  h.update a ((h.tables a).rawset k x hk)

/-- The metatable of a table is assigned. -/
def setMeta (h : Heap ι) (a : ℕ) (m : Option ℕ) : Heap ι :=
  h.update a { h.tables a with metatable := m }

@[simp] theorem update_same (h : Heap ι) (a : ℕ) (t : Table ι) : (h.update a t).tables a = t :=
  if_pos rfl

theorem update_ne (h : Heap ι) {a b : ℕ} (hb : b ≠ a) (t : Table ι) :
    (h.update a t).tables b = h.tables b := if_neg hb

end Heap

/-! ## Programs -/

/-- A program on the heap. An error leaves the heap as it is then. -/
abbrev Lua (ι : Type) [DecidableEq ι] (α : Type) := ExceptT (LuaError ι) (StateM (Heap ι)) α

/-- What is open: functions and the order of `next`. -/
structure Interp (ι : Type) [DecidableEq ι] where
  /-- A call. -/
  call : Value ι → List (Value ι) → Lua ι (List (Value ι))
  /-- The order in which `next` goes through the keys of a table, or of a local one. -/
  order : Heap ι → Option ℕ → List (Value ι) → List (Value ι)
  /-- It goes through each once. -/
  order_perm : ∀ h a ks, (order h a ks).Perm ks
  /-- The rounds after which a loop over a user's iterator is given up. -/
  rounds : ℕ

section Operations

variable (I : Interp ι)

/-- `rawset` -/
def rawset (a : ℕ) (k x : Value ι) : Lua ι Unit :=
  if hk : k = .nil then throw .nilKey else modify fun h => h.set a k x hk

/-- `luaV_finishget`, within a number of steps along `__index`. -/
def indexFrom : ℕ → Value ι → Value ι → Lua ι (Value ι)
  | 0, _, _ => throw .chainTooLong
  | n + 1, v, k => do
      let h ← get
      if h.raw v k ≠ .nil then pure (h.raw v k)
      else
        match h.metamethod v "__index" with
        | .nil => if v.isTable then pure .nil else throw .indexOther
        | .func f => do
            let rs ← I.call (.func f) [v, k]
            pure (rs.headD .nil)
        | tm => indexFrom n tm k

/-- `luaV_finishset`, within a number of steps along `__newindex`. -/
def setindexFrom : ℕ → Value ι → Value ι → Value ι → Lua ι Unit
  | 0, _, _, _ => throw .chainTooLong
  | n + 1, v, k, x => do
      let h ← get
      match (if h.raw v k ≠ .nil then .nil else h.metamethod v "__newindex") with
      | .nil =>
          match v with
          | .table a => rawset a k x
          | _ => throw .indexOther
      | .func f => do
          let _ ← I.call (.func f) [v, k, x]
      | tm => setindexFrom n tm k x

/-- `MAXTAGLOOP` -/
def maxTagLoop : ℕ := 2000

/-- `v[k]` -/
def index (v k : Value ι) : Lua ι (Value ι) := indexFrom I maxTagLoop v k

/-- `v[k] = x` -/
def setindex (v k x : Value ι) : Lua ι Unit := setindexFrom I maxTagLoop v k x

/-- `v == w` -/
def equal (v w : Value ι) : Lua ι Bool := do
  let h ← get
  if v = w then pure true
  else if v.isTable && w.isTable then
    match (if h.metamethod v "__eq" = .nil then h.metamethod w "__eq" else h.metamethod v "__eq") with
    | .nil => pure false
    | tm => do
        let rs ← I.call tm [v, w]
        pure (rs.headD .nil).truthy
  else pure false

/-- `getmetatable` -/
def getmetatable (v : Value ι) : Lua ι (Value ι) := do
  let h ← get
  match h.metatable v with
  | none => pure .nil
  | some m =>
      if h.metamethod v "__metatable" = .nil then pure (.table m)
      else pure (h.metamethod v "__metatable")

/-- `setmetatable` -/
def setmetatable (a : ℕ) (v : Value ι) : Lua ι Unit := do
  let h ← get
  match v with
  | .nil =>
      if h.metamethod (.table a) "__metatable" = .nil then set (h.setMeta a none)
      else throw .protectedMetatable
  | .table m =>
      if h.metamethod (.table a) "__metatable" = .nil then set (h.setMeta a (some m))
      else throw .protectedMetatable
  | _ => throw .badMetatable

variable {σ : Type} (body : σ → Value ι → Value ι → Lua ι σ)

/-- A loop over `next`. A field that was cleared meanwhile is left out. -/
def eachKey (a : ℕ) : List (Value ι) → σ → Lua ι σ
  | [], s => pure s
  | k :: ks, s => do
      let h ← get
      if (h.tables a).rawget k = .nil then eachKey a ks s
      else do
        let s ← body s k ((h.tables a).rawget k)
        eachKey a ks s

/-- A loop over the iterator `f` that `__pairs` gives, with its state and its control variable. -/
def iterate (f st : Value ι) : ℕ → Value ι → σ → Lua ι σ
  | 0, _, _ => throw .endless
  | n + 1, c, s => do
      let rs ← I.call f [st, c]
      if rs.headD .nil = .nil then pure s
      else do
        let s ← body s (rs.headD .nil) (rs.getD 1 .nil)
        iterate f st n (rs.headD .nil) s

/-- `for k, v in pairs(v) do .. end` -/
def forPairs (v : Value ι) (s : σ) : Lua ι σ := do
  let h ← get
  match h.metamethod v "__pairs" with
  | .nil =>
      match v with
      | .table a => eachKey body a (I.order h (some a) (h.tables a).fields.keys) s
      | _ => throw .notTable
  | tm => do
      let rs ← I.call tm [v]
      iterate I body (rs.headD .nil) (rs.getD 1 .nil) I.rounds (rs.getD 2 .nil) s

end Operations

/-! ## Sequences -/

section Sequences

variable {α β : Type} {m : Lua ι α} {f : α → Lua ι β} {h h' : Heap ι}

/-- A sequence whose first part ends normally. -/
theorem bind_of_ok {a : α} (hm : m h = (.ok a, h')) : (m >>= f) h = f a h' := by
  change ExceptT.bindCont f (m h).1 (m h).2 = _
  rw [hm]
  rfl

/-- A sequence whose first part raises. -/
theorem bind_of_error {e : LuaError ι} (hm : m h = (.error e, h')) :
    (m >>= f) h = (.error e, h') := by
  change ExceptT.bindCont f (m h).1 (m h).2 = _
  rw [hm]
  rfl

end Sequences

/-! ## Plain tables -/

section Plain

variable (I : Interp ι) {h : Heap ι} {a v : ℕ} {k x : Value ι}

/-- A field that is there is read without a metamethod. -/
theorem index_of_raw {w : Value ι} (hw : h.raw w k ≠ .nil) : index I w k h = (.ok (h.raw w k), h) := by
  change (ite (h.raw w k ≠ .nil) _ _ : Lua ι (Value ι)) h = _
  rw [if_pos hw]
  rfl

/-- A field that is there, or of a table without `__newindex`, is assigned. -/
theorem setindex_of_plain (hk : k ≠ .nil)
    (hplain : h.raw (.table a) k ≠ .nil ∨ h.metamethod (.table a) "__newindex" = .nil) :
    setindex I (.table a) k x h = (.ok (), h.set a k x hk) := by
  have htm : (if h.raw (.table a) k ≠ .nil then Value.nil
      else h.metamethod (.table a) "__newindex") = .nil := by
    split
    · rfl
    · rename_i hraw
      exact hplain.resolve_left hraw
  have hset : (rawset a k x : Lua ι Unit) h = (.ok (), h.set a k x hk) := by
    rw [rawset, dif_neg hk]
    rfl
  rw [setindex, maxTagLoop, setindexFrom]
  change (match (if h.raw (.table a) k ≠ .nil then Value.nil
      else h.metamethod (.table a) "__newindex") with
    | .nil => rawset a k x
    | .func f => _
    | tm => _ : Lua ι Unit) h = _
  rw [htm]
  exact hset

/-- A table equals itself. -/
theorem equal_self (w : Value ι) : equal I w w h = (.ok true, h) := by
  change (ite (w = w) _ _ : Lua ι Bool) h = _
  rw [if_pos rfl]
  rfl

/-- Different values without `__eq` are not equal. -/
theorem equal_of_ne {w w' : Value ι} (hne : w ≠ w') (hw : h.metamethod w "__eq" = .nil)
    (hw' : h.metamethod w' "__eq" = .nil) : equal I w w' h = (.ok false, h) := by
  change (ite (w = w') _ _ : Lua ι Bool) h = _
  rw [if_neg hne, if_pos hw]
  split
  · rw [hw']
    rfl
  · rfl

/-- The metatable that is not hidden. -/
theorem getmetatable_of_plain {w : Value ι} (hw : h.metamethod w "__metatable" = .nil) :
    getmetatable w h = (.ok ((h.metatable w).elim .nil .table), h) := by
  change (match h.metatable w with
    | none => pure .nil
    | some m => if h.metamethod w "__metatable" = .nil then pure (.table m)
        else pure (h.metamethod w "__metatable") : Lua ι (Value ι)) h = _
  cases h.metatable w with
  | none => rfl
  | some m =>
      dsimp only
      rw [if_pos hw]
      rfl

/-- The metatable of a table that is not protected. -/
theorem setmetatable_of_plain (m : ℕ) (ha : h.metamethod (.table a) "__metatable" = .nil) :
    setmetatable a (.table m) h = (.ok (), h.setMeta a (some m)) := by
  change (ite (h.metamethod (.table a) "__metatable" = .nil) _ _ : Lua ι Unit) h = _
  rw [if_pos ha]
  rfl

/-- A loop over something that is no table and has no iterator. -/
theorem forPairs_of_not_table {σ : Type} {body : σ → Value ι → Value ι → Lua ι σ} {w : Value ι} {s : σ}
    (hw : w.isTable = false) (hpairs : h.metamethod w "__pairs" = .nil) :
    forPairs I body w s h = (.error .notTable, h) := by
  change (match h.metamethod w "__pairs" with
    | .nil => _
    | tm => _ : Lua ι σ) h = _
  rw [hpairs]
  cases w with
  | table a => cases hw
  | nil | bool | str | func | other => rfl

/-- A loop over a table without an iterator. -/
theorem forPairs_of_plain {σ : Type} {body : σ → Value ι → Value ι → Lua ι σ} {s : σ}
    (hpairs : h.metamethod (.table a) "__pairs" = .nil) :
    forPairs I body (.table a) s h
      = eachKey body a (I.order h (some a) (h.tables a).fields.keys) s h := by
  change (match h.metamethod (.table a) "__pairs" with
    | .nil => eachKey body a (I.order h (some a) (h.tables a).fields.keys) s
    | tm => _ : Lua ι σ) h = _
  rw [hpairs]

/-- A loop that leaves the heap alone. -/
theorem eachKey_pure {σ : Type} (g : σ → Value ι → Value ι → σ) (ks : List (Value ι)) (s : σ) :
    eachKey (fun s k x => pure (g s k x)) a ks s h
      = (.ok (ks.foldl (fun s k =>
          if (h.tables a).rawget k = .nil then s else g s k ((h.tables a).rawget k)) s), h) := by
  induction ks generalizing s with
  | nil => rfl
  | cons k ks ih =>
      rw [List.foldl_cons, ← ih]
      change (ite ((h.tables a).rawget k = .nil) _ _ : Lua ι σ) h = _
      split
      · rfl
      · rfl

/-! ## Copying one table into another -/

/-- `h'` is `h` with the fields of the table `a` copied to the table `v`, as far as they are among the
keys. -/
structure Copied (a v : ℕ) (ks : List (Value ι)) (h h' : Heap ι) : Prop where
  /-- The other tables. -/
  tables : ∀ b, b ≠ v → h'.tables b = h.tables b
  /-- The metatables of other values. -/
  typeMetatable : h'.typeMetatable = h.typeMetatable
  /-- The metatable of `v`. -/
  metatable : (h'.tables v).metatable = (h.tables v).metatable
  /-- The fields of `v`. -/
  fields : ∀ x, (h'.tables v).rawget x
    = if x ∈ ks ∧ (h.tables a).rawget x ≠ .nil then (h.tables a).rawget x else (h.tables v).rawget x

/-- The metamethods of a table after an assignment to another one, which may be its metatable. -/
theorem metamethod_set {b : ℕ} {name : String} (hk : k ≠ .nil) (hname : k ≠ .str name) :
    (h.set v k x hk).metamethod (.table b) name = h.metamethod (.table b) name := by
  have hmeta : ((h.set v k x hk).tables b).metatable = (h.tables b).metatable := by
    rw [Heap.set]
    by_cases hb : b = v
    · rw [hb, Heap.update_same, Table.rawset_metatable]
    · rw [Heap.update_ne h hb]
  have hget : ∀ c, ((h.set v k x hk).tables c).rawget (.str name) = (h.tables c).rawget (.str name) := by
    intro c
    rw [Heap.set]
    by_cases hc : c = v
    · rw [hc, Heap.update_same, Table.rawget_rawset, if_neg (Ne.symm hname)]
    · rw [Heap.update_ne h hc]
  simp only [Heap.metamethod, Heap.metatable, hmeta, hget]

/-- **A table is copied into another one** field by field. -/
theorem eachKey_copy (hne : a ≠ v) (hv : h.metamethod (.table v) "__newindex" = .nil)
    (ha : (h.tables a).rawget (.str "__newindex") = .nil) (ks : List (Value ι)) :
    ∃ h', eachKey (fun _ k x => setindex I (.table v) k x) a ks () h = (.ok (), h') ∧
      Copied a v ks h h' := by
  induction ks generalizing h with
  | nil =>
      refine ⟨h, rfl, fun _ _ => rfl, rfl, rfl, fun x => ?_⟩
      rw [if_neg fun hx => List.not_mem_nil hx.1]
  | cons k ks ih =>
      by_cases hnil : (h.tables a).rawget k = .nil
      · -- an absent field is not visited
        obtain ⟨h', hrun, hcopied⟩ := ih hv ha
        refine ⟨h', ?_, hcopied.tables, hcopied.typeMetatable, hcopied.metatable, fun x => ?_⟩
        · change (ite ((h.tables a).rawget k = .nil) _ _ : Lua ι Unit) h = _
          rw [if_pos hnil]
          exact hrun
        · rw [hcopied.fields]
          by_cases hx : x = k
          · subst hx
            simp [hnil]
          · simp [hx]
      · have hk : k ≠ .nil := by
          rintro rfl
          exact hnil (Table.rawget_nil _)
        have hname : k ≠ .str "__newindex" := by
          rintro rfl
          exact hnil ha
        -- without a `__newindex` in the way the field is set, and the source is another table
        have hset := setindex_of_plain I (x := (h.tables a).rawget k) hk (Or.inr hv)
        have hsame : (h.set v k ((h.tables a).rawget k) hk).tables a = h.tables a :=
          Heap.update_ne h hne _
        obtain ⟨h', hrun, hcopied⟩ := ih (h := h.set v k ((h.tables a).rawget k) hk)
          ((metamethod_set hk hname).trans hv) (by rw [hsame]; exact ha)
        refine ⟨h', ?_, fun b hb => ?_, hcopied.typeMetatable, ?_, fun x => ?_⟩
        · change (ite ((h.tables a).rawget k = .nil) _ _ : Lua ι Unit) h = _
          rw [if_neg hnil]
          exact (bind_of_ok hset).trans hrun
        · exact (hcopied.tables b hb).trans (Heap.update_ne h hb _)
        · rw [hcopied.metatable, Heap.set, Heap.update_same, Table.rawset_metatable]
        · rw [hcopied.fields, hsame, Heap.set, Heap.update_same, Table.rawget_rawset]
          by_cases hx : x = k
          · subst hx
            simp [hnil]
          · simp [hx]

/-- **Copying a table**, as a loop over `pairs`: each field that it has is taken over. -/
theorem forPairs_copy (hne : a ≠ v) (hpairs : h.metamethod (.table a) "__pairs" = .nil)
    (hv : h.metamethod (.table v) "__newindex" = .nil)
    (ha : (h.tables a).rawget (.str "__newindex") = .nil) :
    ∃ h' ks, forPairs I (fun _ k x => setindex I (.table v) k x) (.table a) () h = (.ok (), h') ∧
      Copied a v ks h h' ∧ ∀ x, (h'.tables v).rawget x
        = if (h.tables a).rawget x ≠ .nil then (h.tables a).rawget x else (h.tables v).rawget x := by
  obtain ⟨h', hrun, hcopied⟩ :=
    eachKey_copy I hne hv ha (I.order h (some a) (h.tables a).fields.keys)
  refine ⟨h', _, (forPairs_of_plain I hpairs).trans hrun, hcopied, fun x => ?_⟩
  have hmem : x ∈ I.order h (some a) (h.tables a).fields.keys ↔ (h.tables a).rawget x ≠ .nil :=
    (I.order_perm h (some a) (h.tables a).fields.keys).mem_iff.trans Table.mem_keys
  rw [hcopied.fields]
  simp only [hmem, and_self]

end Plain

end LuaHeap

end FrameSync
