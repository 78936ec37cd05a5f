import FrameSync.Wire.Dispatch

/-! # The messages of the game

The messages as the Lua and Python tables that are requested and dispatched. What `spSend` sends is what
`host:attach` makes of such a table, and the other end reads the message that was sent: the client from every
message of the server that packs (`rpcDispatch_spSend`), the server from every message of the client
(`hostDispatch_clientMsg`). -/

namespace FrameSync

open Sproto Game

/-! ## Tables -/

/-- A table with these fields, but for those that are `nil`. -/
def tableOf (l : List (ℕ × Option Value)) : List (ℕ × Value) := l.filterMap fun x => x.2.map (x.1, ·)

/-- A field of a table is found by its tag. -/
theorem lookup_tableOf {l : List (ℕ × Option Value)} (hl : (l.map Prod.fst).Nodup) {tag : ℕ} {o : Option Value}
    (h : (tag, o) ∈ l) : (tableOf l).lookup tag = o := by
  induction l with
  | nil => exact absurd h List.not_mem_nil
  | cons x l ih =>
      obtain ⟨tag', o'⟩ := x
      rw [List.map_cons, List.nodup_cons] at hl
      rcases List.mem_cons.mp h with heq | hmem
      · obtain ⟨rfl, rfl⟩ := Prod.mk.inj heq
        cases o with
        | some v => exact List.lookup_cons_self
        | none =>
            -- no other field has the tag
            change (tableOf l).lookup tag = none
            refine List.lookup_eq_none_iff.mpr fun y hy => bne_iff_ne.mpr ?_
            rintro rfl
            obtain ⟨z, hz, hy⟩ := List.mem_filterMap.mp hy
            obtain ⟨v, -, rfl⟩ := Option.map_eq_some_iff.mp hy
            exact hl.1 (List.mem_map.mpr ⟨z, hz, rfl⟩)
      · have hne : (tag == tag') = false := by
          refine beq_eq_false_iff_ne.mpr ?_
          rintro rfl
          exact hl.1 (List.mem_map.mpr ⟨_, hmem, rfl⟩)
        cases o' with
        | none => exact ih hl.2 hmem
        | some v =>
            change ((tag', v) :: tableOf l).lookup tag = o
            rw [List.lookup_cons, hne]
            exact ih hl.2 hmem

/-- A field of a message: its description, its value in the table, and what is sent of it. -/
structure Entry where
  /-- What the schema says. -/
  desc : FieldDesc
  /-- The value, `nil` as `none`. -/
  value : Option Value
  /-- The field on the wire. -/
  field : Option Field

/-- The value belongs into the field, and is sent like this. -/
def Entry.Sound (deep : ℕ) (e : Entry) : Prop :=
  encodeEntry (Sproto.encode schema deep) e.desc e.value = some (e.desc.tag, e.field) ∧
    ∀ v, e.value = some v → e.desc.Holds (Typed schema deep) v

/-- The table has the type, and `bytes` is how it is sent. -/
def Represents (deep t : ℕ) (table : List (ℕ × Value)) (bytes : Bytes) : Prop :=
  Typed schema deep t table ∧ Sproto.encode schema deep t table = some bytes

/-- A message is sent field by field. -/
theorem represents_of_entries {deep t : ℕ} (es : List Entry) (hfields : (schema t).fields = es.map Entry.desc)
    (hes : ∀ e ∈ es, e.Sound deep) :
    Represents (deep + 1) t (tableOf (es.map fun e => (e.desc.tag, e.value)))
      (encodeStruct (es.map fun e => (e.desc.tag, e.field))) := by
  have hascending : (es.map fun e => e.desc.tag).Pairwise (· < ·) := by
    have h := (schema t).ascending
    rw [hfields, List.pairwise_map] at h
    exact List.pairwise_map.mpr h
  have hnodup : ((es.map fun e => (e.desc.tag, e.value)).map Prod.fst).Nodup := by
    rw [List.map_map]
    exact hascending.imp Nat.ne_of_lt
  constructor
  · refine ⟨?_, fun x hx => ?_⟩
    · -- the tags of the table are some of those of the type
      have hsub : ((tableOf (es.map fun e => (e.desc.tag, e.value))).map Prod.fst).Sublist
          (es.map fun e => e.desc.tag) := by
        clear hfields hes hascending hnodup
        induction es with
        | nil => exact List.Sublist.slnil
        | cons e es ih =>
            obtain ⟨desc, value, field⟩ := e
            cases value with
            | none => exact ih.cons _
            | some v => exact ih.cons_cons _
      exact hascending.sublist hsub
    · obtain ⟨y, hy, hx⟩ := List.mem_filterMap.mp hx
      obtain ⟨e, he, rfl⟩ := List.mem_map.mp hy
      obtain ⟨v, hv, rfl⟩ := Option.map_eq_some_iff.mp hx
      refine ⟨e.desc, ?_, rfl, (hes e he).2 v hv⟩
      rw [hfields]
      exact List.mem_map_of_mem he
  · have hmap : (es.mapM fun e => encodeEntry (Sproto.encode schema deep) e.desc
        ((tableOf (es.map fun e => (e.desc.tag, e.value))).lookup e.desc.tag)) =
        some (es.map fun e => (e.desc.tag, e.field)) := by
      obtain ⟨xs, hxs, hsnd, heq⟩ := exists_mapM (l := es) (R := fun b e => b = (e.desc.tag, e.field))
        (f := fun e => encodeEntry (Sproto.encode schema deep) e.desc
          ((tableOf (es.map fun e => (e.desc.tag, e.value))).lookup e.desc.tag)) fun e he => by
            refine ⟨_, ?_, rfl⟩
            rw [lookup_tableOf hnodup (List.mem_map_of_mem he)]
            exact (hes e he).1
      rw [hxs, ← hsnd, List.map_map]
      exact congrArg some (List.map_congr_left heq)
    rw [Sproto.encode, hfields, List.mapM_map]
    exact congrArg (Option.map encodeStruct) hmap

namespace Entry

variable {α : Type} {deep : ℕ}

/-- An integer field. -/
def int (tag : ℕ) (o : Option ℤ) : Entry := ⟨⟨tag, .integer, false⟩, o.map .integer, o.map encodeInteger⟩

/-- A boolean field. -/
def bool (tag : ℕ) (b : Bool) : Entry := ⟨⟨tag, .boolean, false⟩, some (.boolean b), some (encodeBoolean b)⟩

/-- A string field. -/
def string (tag : ℕ) (o : Option Bytes) : Entry := ⟨⟨tag, .string, false⟩, o.map .string, o.map encodeObject⟩

/-- A field with a struct of type `t`. -/
def struct (tag t : ℕ) (table : α → List (ℕ × Value)) (enc : α → Bytes) (o : Option α) : Entry :=
  ⟨⟨tag, .struct t, false⟩, o.map fun a => .struct (table a), o.map fun a => encodeObject (enc a)⟩

/-- A field with a sequence of structs of type `t`. -/
def structs (tag t : ℕ) (table : α → List (ℕ × Value)) (enc : α → Bytes) (l : List α) : Entry :=
  ⟨⟨tag, .struct t, true⟩, some (.array (l.map fun a => .struct (table a))), some (encodeArray (l.map enc))⟩

theorem sound_int {tag : ℕ} {o : Option ℤ} (h : ∀ v ∈ o, Int64 v) : (int tag o).Sound deep := by
  cases o with
  | none => exact ⟨rfl, fun v hv => absurd hv (Option.some_ne_none v).symm⟩
  | some n =>
      refine ⟨rfl, fun v hv => ?_⟩
      obtain rfl := Option.some.inj hv
      exact h n rfl

theorem sound_bool (tag : ℕ) (b : Bool) : (bool tag b).Sound deep := by
  refine ⟨rfl, fun v hv => ?_⟩
  obtain rfl := Option.some.inj hv
  exact trivial

theorem sound_string (tag : ℕ) (o : Option Bytes) : (string tag o).Sound deep := by
  cases o with
  | none => exact ⟨rfl, fun v hv => absurd hv (Option.some_ne_none v).symm⟩
  | some s =>
      refine ⟨rfl, fun v hv => ?_⟩
      obtain rfl := Option.some.inj hv
      exact trivial

theorem sound_struct {tag t : ℕ} {table : α → List (ℕ × Value)} {enc : α → Bytes} {o : Option α}
    (h : ∀ a ∈ o, Represents deep t (table a) (enc a)) : (struct tag t table enc o).Sound deep := by
  cases o with
  | none => exact ⟨rfl, fun v hv => absurd hv (Option.some_ne_none v).symm⟩
  | some a =>
      obtain ⟨htyped, henc⟩ := h a rfl
      refine ⟨?_, fun v hv => ?_⟩
      · change ((Sproto.encode schema deep t (table a)).map encodeObject).map _ = _
        rw [henc]
        rfl
      · obtain rfl := Option.some.inj hv
        exact htyped

theorem sound_structs {tag t : ℕ} {table : α → List (ℕ × Value)} {enc : α → Bytes} {l : List α}
    (h : ∀ a ∈ l, Represents deep t (table a) (enc a)) : (structs tag t table enc l).Sound deep := by
  have hmap : (l.map fun a => Value.struct (table a)).mapM (encodeElem (Sproto.encode schema deep) (.struct t)) =
      some (l.map enc) := by
    rw [List.mapM_map]
    induction l with
    | nil => rfl
    | cons a l ih =>
        obtain ⟨ha, hl⟩ := List.forall_mem_cons.mp h
        have helem : (encodeElem (Sproto.encode schema deep) (.struct t) ∘ fun a => Value.struct (table a)) a =
            some (enc a) := ha.2
        rw [List.mapM_cons, helem, ih hl]
        rfl
  refine ⟨?_, fun v hv => ?_⟩
  · change ((((l.map fun a => Value.struct (table a)).mapM
      (encodeElem (Sproto.encode schema deep) (.struct t))).map fun bs => bs.flatMap fillSize).map
        fun b => Field.data (fillSize b)).map _ = _
    rw [hmap]
    rfl
  · obtain rfl := Option.some.inj hv
    refine ⟨_, rfl, fun e he => ?_⟩
    obtain ⟨a, ha, rfl⟩ := List.mem_map.mp he
    exact (h a ha).1

end Entry

/-! ## Messages as tables -/

/-- A `Pos` as a table. -/
def Pos.table (p : Pos) : List (ℕ × Value) := tableOf [(0, p.x.map .integer), (1, p.z.map .integer)]

/-- A `Color` as a table. -/
def Color.table (c : Color) : List (ℕ × Value) :=
  tableOf [(0, c.r.map .integer), (1, c.g.map .integer), (2, c.b.map .integer)]

/-- An `ActionEnter` as a table. -/
def ActionEnter.table (a : ActionEnter) : List (ℕ × Value) :=
  tableOf [(0, a.name.map .string), (1, a.color.map fun c => .struct c.table),
    (2, a.pos.map fun p => .struct p.table)]

/-- An `ActionAttack` as a table. -/
def ActionAttack.table (a : ActionAttack) : List (ℕ × Value) := tableOf [(0, a.status.map .integer)]

/-- An `ActionMove` as a table. -/
def ActionMove.table (a : ActionMove) : List (ℕ × Value) :=
  tableOf [(0, a.dir.map .integer), (1, a.status.map .integer)]

/-- A `CtrlInfo` as a table. -/
def CtrlInfo.table (c : CtrlInfo) : List (ℕ × Value) :=
  tableOf [(0, c.pid.map .integer), (1, c.action.map .integer), (2, c.enterInfo.map fun a => .struct a.table),
    (3, c.attackInfo.map fun a => .struct a.table), (4, c.moveInfo.map fun a => .struct a.table)]

/-- A `FrameInfo` as a table. -/
def FrameInfo.table (f : FrameInfo) : List (ℕ × Value) :=
  tableOf [(0, some (.integer f.frameNumber)), (1, some (.array (f.ctrlData.map fun c => .struct c.table))),
    (2, some (.integer f.timestamp))]

/-- The protocol of a message of the server. -/
def ServerMsg.proto : ServerMsg → Proto
  | .gs2cLoginsuc .. => ⟨101, "gs2c_loginsuc", 10⟩
  | .gs2cFrameCacheData _ => ⟨102, "gs2c_frame_cache_data", 11⟩
  | .gs2cPing .. => ⟨201, "gs2c_ping", 12⟩
  | .gs2cFrameData _ => ⟨204, "gs2c_frame_data", 15⟩
  | .gs2cRttData .. => ⟨206, "gs2c_rtt_data", 17⟩

theorem protoOfName_serverMsg (m : ServerMsg) : protoOfName m.proto.name = some m.proto := by
  cases m <;> rfl

theorem tag_proto (m : ServerMsg) : m.proto.tag = m.tag := by
  cases m <;> rfl

/-- The table that goes with it. -/
def ServerMsg.table : ServerMsg → List (ℕ × Value)
  | .gs2cLoginsuc gameId rndseed timestamp frameCacheNum initTime =>
      tableOf [(0, some (.integer gameId)), (1, some (.integer rndseed)), (2, some (.integer timestamp)),
        (3, some (.integer frameCacheNum)), (4, some (.integer initTime))]
  | .gs2cFrameCacheData frameCache => tableOf [(0, some (.array (frameCache.map fun f => .struct f.table)))]
  | .gs2cPing session timestamp isResp =>
      tableOf [(0, some (.integer session)), (1, some (.integer timestamp)), (2, some (.boolean isResp))]
  | .gs2cFrameData frameData => tableOf [(0, some (.struct frameData.table))]
  | .gs2cRttData avgRtt minRtt maxRtt curRtt =>
      tableOf [(0, some (.integer avgRtt)), (1, some (.integer minRtt)), (2, some (.integer maxRtt)),
        (3, some (.integer curRtt))]

/-- The protocol of a message of the client. -/
def ClientMsg.proto? : ClientMsg → Option Proto
  | .c2gsLogin _ => some ⟨100, "c2gs_login", 9⟩
  | .c2gsPing _ => some ⟨202, "c2gs_ping", 13⟩
  | .c2gsCtrlData _ => some ⟨203, "c2gs_ctrl_data", 14⟩
  | .c2gsRttData .. => some ⟨205, "c2gs_rtt_data", 16⟩
  | .other => none

theorem protoOfName_clientMsg {m : ClientMsg} {p : Proto} (h : m.proto? = some p) :
    protoOfName p.name = some p := by
  cases m with
  | other => exact absurd h (Option.some_ne_none p).symm
  | c2gsLogin | c2gsPing | c2gsCtrlData | c2gsRttData =>
      obtain rfl := Option.some.inj h
      rfl

/-- The table that goes with it. -/
def ClientMsg.table : ClientMsg → List (ℕ × Value)
  | .c2gsLogin pid => tableOf [(0, pid.map .integer)]
  | .c2gsPing session => tableOf [(0, session.map .integer)]
  | .c2gsCtrlData ctrlData => tableOf [(0, ctrlData.map fun c => .struct c.table)]
  | .c2gsRttData avgRtt minRtt maxRtt curRtt =>
      tableOf [(0, avgRtt.map .integer), (1, minRtt.map .integer), (2, maxRtt.map .integer),
        (3, curRtt.map .integer)]
  | .other => []

/-! ## Integers -/

/-- The integers of a `Pos`. -/
def Pos.integers (p : Pos) : List ℤ := p.x.toList ++ p.z.toList

/-- The integers of a `Color`. -/
def Color.integers (c : Color) : List ℤ := c.r.toList ++ c.g.toList ++ c.b.toList

/-- The integers of an `ActionEnter`. -/
def ActionEnter.integers (a : ActionEnter) : List ℤ :=
  a.color.elim [] Color.integers ++ a.pos.elim [] Pos.integers

/-- The integers of a `CtrlInfo`. -/
def CtrlInfo.integers (c : CtrlInfo) : List ℤ :=
  c.pid.toList ++ c.action.toList ++ c.enterInfo.elim [] ActionEnter.integers ++
    c.attackInfo.elim [] (fun a => a.status.toList) ++
    c.moveInfo.elim [] fun a => a.dir.toList ++ a.status.toList

/-- The integers of a `FrameInfo`. -/
def FrameInfo.integers (f : FrameInfo) : List ℤ :=
  [(f.frameNumber : ℤ), (f.timestamp : ℤ)] ++ f.ctrlData.flatMap CtrlInfo.integers

/-- The integers of a message of the server. -/
def ServerMsg.integers : ServerMsg → List ℤ
  | .gs2cLoginsuc gameId rndseed timestamp frameCacheNum initTime =>
      [(gameId : ℤ), (rndseed : ℤ), (timestamp : ℤ), (frameCacheNum : ℤ), (initTime : ℤ)]
  | .gs2cFrameCacheData frameCache => frameCache.flatMap FrameInfo.integers
  | .gs2cPing session timestamp _ => [(session : ℤ), (timestamp : ℤ)]
  | .gs2cFrameData frameData => frameData.integers
  | .gs2cRttData avgRtt minRtt maxRtt curRtt => [avgRtt, minRtt, maxRtt, curRtt]

/-- The integers of a message of the client. -/
def ClientMsg.integers : ClientMsg → List ℤ
  | .c2gsLogin pid => pid.toList
  | .c2gsPing session => session.toList
  | .c2gsCtrlData ctrlData => ctrlData.elim [] CtrlInfo.integers
  | .c2gsRttData avgRtt minRtt maxRtt curRtt => avgRtt.toList ++ minRtt.toList ++ maxRtt.toList ++ curRtt.toList
  | .other => []

/-- Every integer fits into 64 bits. -/
abbrev AllInt64 (l : List ℤ) : Prop := ∀ v ∈ l, Int64 v

theorem allInt64_elim {α : Type} {o : Option α} {f : α → List ℤ} (h : AllInt64 (o.elim [] f)) :
    ∀ a ∈ o, AllInt64 (f a) := by
  rintro a rfl
  exact h

theorem allInt64_toList {o : Option ℤ} (h : AllInt64 o.toList) : ∀ v ∈ o, Int64 v :=
  fun v hv => h v (Option.mem_toList.mpr hv)

/-! ## Messages are sent as their tables -/

section Represents

variable {deep : ℕ}

theorem represents_pos {p : Pos} (h : AllInt64 p.integers) : Represents (deep + 1) pos p.table p.encode := by
  obtain ⟨hx, hz⟩ := List.forall_mem_append.mp h
  refine represents_of_entries [.int 0 p.x, .int 1 p.z] rfl (List.forall_mem_cons.mpr ⟨?_, ?_⟩)
  · exact Entry.sound_int (allInt64_toList hx)
  · exact List.forall_mem_singleton.mpr (Entry.sound_int (allInt64_toList hz))

theorem represents_color {c : Color} (h : AllInt64 c.integers) :
    Represents (deep + 1) color c.table c.encode := by
  obtain ⟨hrg, hb⟩ := List.forall_mem_append.mp h
  obtain ⟨hr, hg⟩ := List.forall_mem_append.mp hrg
  refine represents_of_entries [.int 0 c.r, .int 1 c.g, .int 2 c.b] rfl (List.forall_mem_cons.mpr ⟨?_,
    List.forall_mem_cons.mpr ⟨?_, List.forall_mem_singleton.mpr ?_⟩⟩)
  · exact Entry.sound_int (allInt64_toList hr)
  · exact Entry.sound_int (allInt64_toList hg)
  · exact Entry.sound_int (allInt64_toList hb)

theorem represents_enter {a : ActionEnter} (h : AllInt64 a.integers) :
    Represents (deep + 2) enter a.table a.encode := by
  obtain ⟨hcolor, hpos⟩ := List.forall_mem_append.mp h
  refine represents_of_entries [.string 0 a.name, .struct 1 color Color.table Color.encode a.color,
    .struct 2 pos Pos.table Pos.encode a.pos] rfl (List.forall_mem_cons.mpr ⟨Entry.sound_string 0 a.name,
      List.forall_mem_cons.mpr ⟨?_, List.forall_mem_singleton.mpr ?_⟩⟩)
  · exact Entry.sound_struct fun c hc => represents_color (allInt64_elim hcolor c hc)
  · exact Entry.sound_struct fun p hp => represents_pos (allInt64_elim hpos p hp)

theorem represents_attack {a : ActionAttack} (h : AllInt64 a.status.toList) :
    Represents (deep + 1) attack a.table a.encode :=
  represents_of_entries [.int 0 a.status] rfl
    (List.forall_mem_singleton.mpr (Entry.sound_int (allInt64_toList h)))

theorem represents_move {a : ActionMove} (h : AllInt64 (a.dir.toList ++ a.status.toList)) :
    Represents (deep + 1) move a.table a.encode := by
  obtain ⟨hdir, hstatus⟩ := List.forall_mem_append.mp h
  refine represents_of_entries [.int 0 a.dir, .int 1 a.status] rfl (List.forall_mem_cons.mpr ⟨?_, ?_⟩)
  · exact Entry.sound_int (allInt64_toList hdir)
  · exact List.forall_mem_singleton.mpr (Entry.sound_int (allInt64_toList hstatus))

theorem represents_ctrlInfo {c : CtrlInfo} (h : AllInt64 c.integers) :
    Represents (deep + 3) ctrlInfo c.table c.encode := by
  obtain ⟨h, hmove⟩ := List.forall_mem_append.mp h
  obtain ⟨h, hattack⟩ := List.forall_mem_append.mp h
  obtain ⟨h, henter⟩ := List.forall_mem_append.mp h
  obtain ⟨hpid, haction⟩ := List.forall_mem_append.mp h
  refine represents_of_entries [.int 0 c.pid, .int 1 c.action,
    .struct 2 enter ActionEnter.table ActionEnter.encode c.enterInfo,
    .struct 3 attack ActionAttack.table ActionAttack.encode c.attackInfo,
    .struct 4 move ActionMove.table ActionMove.encode c.moveInfo] rfl (List.forall_mem_cons.mpr ⟨?_,
      List.forall_mem_cons.mpr ⟨?_, List.forall_mem_cons.mpr ⟨?_, List.forall_mem_cons.mpr ⟨?_,
        List.forall_mem_singleton.mpr ?_⟩⟩⟩⟩)
  · exact Entry.sound_int (allInt64_toList hpid)
  · exact Entry.sound_int (allInt64_toList haction)
  · exact Entry.sound_struct fun a ha => represents_enter (allInt64_elim henter a ha)
  · exact Entry.sound_struct fun a ha => represents_attack (allInt64_elim hattack a ha)
  · exact Entry.sound_struct fun a ha => represents_move (allInt64_elim hmove a ha)

theorem represents_frameInfo {f : FrameInfo} (h : AllInt64 f.integers) :
    Represents (deep + 4) frameInfo f.table f.encode := by
  obtain ⟨hfirst, hctrl⟩ := List.forall_mem_append.mp h
  obtain ⟨hnumber, htime⟩ := List.forall_mem_cons.mp hfirst
  have hentry : ∀ c ∈ f.ctrlData, Represents (deep + 3) ctrlInfo c.table c.encode :=
    fun c hc => represents_ctrlInfo fun v hv => hctrl v (List.mem_flatMap_of_mem hc hv)
  refine represents_of_entries [.int 0 (some f.frameNumber),
    .structs 1 ctrlInfo CtrlInfo.table CtrlInfo.encode f.ctrlData, .int 2 (some f.timestamp)] rfl
      (List.forall_mem_cons.mpr ⟨?_, List.forall_mem_cons.mpr ⟨Entry.sound_structs hentry,
        List.forall_mem_singleton.mpr ?_⟩⟩)
  · exact Entry.sound_int fun v hv => Option.some.inj hv ▸ hnumber
  · exact Entry.sound_int fun v hv => Option.some.inj hv ▸ List.forall_mem_singleton.mp htime

theorem sound_some {tag : ℕ} {v : ℤ} (h : Int64 v) : (Entry.int tag (some v)).Sound deep :=
  Entry.sound_int fun _ hw => Option.some.inj hw ▸ h

/-- **A message of the server is sent as its table.** -/
theorem represents_serverMsg {m : ServerMsg} (h : AllInt64 m.integers) :
    Represents (deep + 5) m.proto.request m.table m.encode := by
  cases m with
  | gs2cLoginsuc gameId rndseed timestamp frameCacheNum initTime =>
      have hv : ∀ v ∈ [(gameId : ℤ), (rndseed : ℤ), (timestamp : ℤ), (frameCacheNum : ℤ), (initTime : ℤ)],
        Int64 v := h
      simp only [List.forall_mem_cons] at hv
      obtain ⟨hgame, hseed, htime, hnum, hinit, -⟩ := hv
      refine represents_of_entries [.int 0 (some gameId), .int 1 (some rndseed), .int 2 (some timestamp),
        .int 3 (some frameCacheNum), .int 4 (some initTime)] rfl (List.forall_mem_cons.mpr ⟨sound_some hgame,
          List.forall_mem_cons.mpr ⟨sound_some hseed, List.forall_mem_cons.mpr ⟨sound_some htime,
            List.forall_mem_cons.mpr ⟨sound_some hnum, List.forall_mem_singleton.mpr (sound_some hinit)⟩⟩⟩⟩)
  | gs2cFrameCacheData frameCache =>
      refine represents_of_entries [.structs 0 frameInfo FrameInfo.table FrameInfo.encode frameCache] rfl
        (List.forall_mem_singleton.mpr (Entry.sound_structs fun f hf => represents_frameInfo fun v hv => ?_))
      exact h v (List.mem_flatMap_of_mem hf hv)
  | gs2cPing session timestamp isResp =>
      have hv : ∀ v ∈ [(session : ℤ), (timestamp : ℤ)], Int64 v := h
      simp only [List.forall_mem_cons] at hv
      obtain ⟨hsession, htime, -⟩ := hv
      exact represents_of_entries [.int 0 (some session), .int 1 (some timestamp), .bool 2 isResp] rfl
        (List.forall_mem_cons.mpr ⟨sound_some hsession, List.forall_mem_cons.mpr ⟨sound_some htime,
          List.forall_mem_singleton.mpr (Entry.sound_bool 2 isResp)⟩⟩)
  | gs2cFrameData frameData =>
      refine represents_of_entries [.struct 0 frameInfo FrameInfo.table FrameInfo.encode (some frameData)] rfl
        (List.forall_mem_singleton.mpr (Entry.sound_struct fun f hf => ?_))
      exact Option.some.inj hf ▸ represents_frameInfo h
  | gs2cRttData avgRtt minRtt maxRtt curRtt =>
      have hv : ∀ v ∈ [avgRtt, minRtt, maxRtt, curRtt], Int64 v := h
      simp only [List.forall_mem_cons] at hv
      obtain ⟨havg, hmin, hmax, hcur, -⟩ := hv
      exact represents_of_entries [.int 0 (some avgRtt), .int 1 (some minRtt), .int 2 (some maxRtt),
        .int 3 (some curRtt)] rfl (List.forall_mem_cons.mpr ⟨sound_some havg, List.forall_mem_cons.mpr
          ⟨sound_some hmin, List.forall_mem_cons.mpr ⟨sound_some hmax,
            List.forall_mem_singleton.mpr (sound_some hcur)⟩⟩⟩)

/-- The table of a client's message has the type of its request. -/
theorem typed_clientMsg {m : ClientMsg} {p : Proto} (hp : m.proto? = some p) (h : AllInt64 m.integers) :
    Typed schema (deep + 5) p.request m.table := by
  cases m with
  | c2gsLogin pid =>
      obtain rfl := Option.some.inj hp
      exact (represents_of_entries [.int 0 pid] rfl
        (List.forall_mem_singleton.mpr (Entry.sound_int (allInt64_toList h)))).1
  | c2gsPing session =>
      obtain rfl := Option.some.inj hp
      exact (represents_of_entries [.int 0 session] rfl
        (List.forall_mem_singleton.mpr (Entry.sound_int (allInt64_toList h)))).1
  | c2gsCtrlData ctrlData =>
      obtain rfl := Option.some.inj hp
      exact (represents_of_entries [.struct 0 ctrlInfo CtrlInfo.table CtrlInfo.encode ctrlData] rfl
        (List.forall_mem_singleton.mpr (Entry.sound_struct fun c hc =>
          represents_ctrlInfo (allInt64_elim h c hc)))).1
  | c2gsRttData avgRtt minRtt maxRtt curRtt =>
      obtain rfl := Option.some.inj hp
      obtain ⟨h, hcur⟩ := List.forall_mem_append.mp h
      obtain ⟨h, hmax⟩ := List.forall_mem_append.mp h
      obtain ⟨havg, hmin⟩ := List.forall_mem_append.mp h
      exact (represents_of_entries [.int 0 avgRtt, .int 1 minRtt, .int 2 maxRtt, .int 3 curRtt] rfl
        (List.forall_mem_cons.mpr ⟨Entry.sound_int (allInt64_toList havg), List.forall_mem_cons.mpr
          ⟨Entry.sound_int (allInt64_toList hmin), List.forall_mem_cons.mpr
            ⟨Entry.sound_int (allInt64_toList hmax), List.forall_mem_singleton.mpr
              (Entry.sound_int (allInt64_toList hcur))⟩⟩⟩)).1
  | other => exact absurd hp (Option.some_ne_none p).symm

end Represents

/-! ## Tables as messages -/

/-- A field that is an integer. -/
def intField (t : List (ℕ × Value)) (tag : ℕ) : Option ℤ := (t.lookup tag).bind Value.toInteger?

/-- A field that is a number. -/
def natField (t : List (ℕ × Value)) (tag : ℕ) : Option ℕ :=
  (intField t tag).bind fun v => if 0 ≤ v then some v.toNat else none

/-- A value as a boolean. -/
def Sproto.Value.toBoolean? : Value → Option Bool
  | .boolean b => some b
  | _ => none

/-- A value as a string. -/
def Sproto.Value.toBytes? : Value → Option Bytes
  | .string s => some s
  | _ => none

/-- A value as a table. -/
def Sproto.Value.toStruct? : Value → Option (List (ℕ × Value))
  | .struct fields => some fields
  | _ => none

/-- A value as a sequence of tables. -/
def Sproto.Value.toStructs? : Value → Option (List (List (ℕ × Value)))
  | .array elems => elems.mapM Value.toStruct?
  | _ => none

/-- The table of a `Pos`. -/
def Pos.ofTable (t : List (ℕ × Value)) : Pos := ⟨intField t 0, intField t 1⟩

/-- The table of a `Color`. -/
def Color.ofTable (t : List (ℕ × Value)) : Color := ⟨intField t 0, intField t 1, intField t 2⟩

/-- The table of an `ActionEnter`. -/
def ActionEnter.ofTable (t : List (ℕ × Value)) : ActionEnter :=
  ⟨(t.lookup 0).bind Value.toBytes?, ((t.lookup 1).bind Value.toStruct?).map Color.ofTable,
    ((t.lookup 2).bind Value.toStruct?).map Pos.ofTable⟩

/-- The table of an `ActionAttack`. -/
def ActionAttack.ofTable (t : List (ℕ × Value)) : ActionAttack := ⟨intField t 0⟩

/-- The table of an `ActionMove`. -/
def ActionMove.ofTable (t : List (ℕ × Value)) : ActionMove := ⟨intField t 0, intField t 1⟩

/-- The table of a `CtrlInfo`. -/
def CtrlInfo.ofTable (t : List (ℕ × Value)) : CtrlInfo :=
  ⟨intField t 0, intField t 1, ((t.lookup 2).bind Value.toStruct?).map ActionEnter.ofTable,
    ((t.lookup 3).bind Value.toStruct?).map ActionAttack.ofTable,
    ((t.lookup 4).bind Value.toStruct?).map ActionMove.ofTable⟩

/-- The table of a `FrameInfo`. -/
def FrameInfo.ofTable (t : List (ℕ × Value)) : Option FrameInfo := do
  let frameNumber ← natField t 0
  let ctrlData ← (t.lookup 1).bind Value.toStructs?
  let timestamp ← natField t 2
  some ⟨frameNumber, ctrlData.map CtrlInfo.ofTable, timestamp⟩

/-- What `_dispatch_request` of the client is called with. -/
def ServerMsg.ofRequest (p : Proto) (t : List (ℕ × Value)) : Option ServerMsg :=
  if p.name = "gs2c_loginsuc" then do
    some (.gs2cLoginsuc (← natField t 0) (← natField t 1) (← natField t 2) (← natField t 3) (← natField t 4))
  else if p.name = "gs2c_frame_data" then
    (((t.lookup 0).bind Value.toStruct?).bind FrameInfo.ofTable).map .gs2cFrameData
  else if p.name = "gs2c_ping" then do
    some (.gs2cPing (← natField t 0) (← natField t 1) (← (t.lookup 2).bind Value.toBoolean?))
  else if p.name = "gs2c_rtt_data" then do
    some (.gs2cRttData (← intField t 0) (← intField t 1) (← intField t 2) (← intField t 3))
  else if p.name = "gs2c_frame_cache_data" then
    (((t.lookup 0).bind Value.toStructs?).bind fun l => l.mapM FrameInfo.ofTable).map .gs2cFrameCacheData
  else none

/-- What `Net.unpack` hands to a service of the server. -/
def ClientMsg.ofRequest (p : Proto) (t : List (ℕ × Value)) : ClientMsg :=
  if p.name = "c2gs_login" then .c2gsLogin (intField t 0)
  else if p.name = "c2gs_ping" then .c2gsPing (intField t 0)
  else if p.name = "c2gs_ctrl_data" then .c2gsCtrlData (((t.lookup 0).bind Value.toStruct?).map CtrlInfo.ofTable)
  else if p.name = "c2gs_rtt_data" then
    .c2gsRttData (intField t 0) (intField t 1) (intField t 2) (intField t 3)
  else .other

theorem lookup_tableOf_cons (t tag : ℕ) (o : Option Value) (l : List (ℕ × Option Value)) :
    (tableOf ((t, o) :: l)).lookup tag =
      if tag = t then o.or ((tableOf l).lookup tag) else (tableOf l).lookup tag := by
  cases o with
  | none =>
      change (tableOf l).lookup tag = _
      split_ifs <;> rfl
  | some v =>
      change ((t, v) :: tableOf l).lookup tag = _
      rw [List.lookup_cons]
      split_ifs with heq
      · rw [beq_iff_eq.mpr heq]
        rfl
      · rw [beq_eq_false_iff_ne.mpr heq]

@[simp] theorem lookup_tableOf_nil (tag : ℕ) : (tableOf []).lookup tag = none := rfl

@[simp] theorem bind_map_integer (o : Option ℤ) : (o.map Value.integer).bind Value.toInteger? = o := by
  cases o <;> rfl

@[simp] theorem bind_map_string (o : Option Bytes) : (o.map Value.string).bind Value.toBytes? = o := by
  cases o <;> rfl

/-- A struct that is read as it was written. -/
theorem map_struct {α : Type} {table : α → List (ℕ × Value)} {ofTable : List (ℕ × Value) → α}
    (h : ∀ a, ofTable (table a) = a) (o : Option α) :
    ((o.map fun a => Value.struct (table a)).bind Value.toStruct?).map ofTable = o := by
  cases o with
  | none => rfl
  | some a => exact congrArg some (h a)

theorem Pos.ofTable_table (p : Pos) : Pos.ofTable p.table = p := by
  simp [Pos.ofTable, Pos.table, intField, lookup_tableOf_cons]

theorem Color.ofTable_table (c : Color) : Color.ofTable c.table = c := by
  simp [Color.ofTable, Color.table, intField, lookup_tableOf_cons]

theorem ActionEnter.ofTable_table (a : ActionEnter) : ActionEnter.ofTable a.table = a := by
  have hname : a.table.lookup 0 = a.name.map .string := by simp [ActionEnter.table, lookup_tableOf_cons]
  have hcolor : a.table.lookup 1 = a.color.map fun c => .struct c.table := by
    simp [ActionEnter.table, lookup_tableOf_cons]
  have hpos : a.table.lookup 2 = a.pos.map fun p => .struct p.table := by
    simp [ActionEnter.table, lookup_tableOf_cons]
  rw [ActionEnter.ofTable, hname, hcolor, hpos, bind_map_string, map_struct Color.ofTable_table,
    map_struct Pos.ofTable_table]

theorem ActionAttack.ofTable_table (a : ActionAttack) : ActionAttack.ofTable a.table = a := by
  simp [ActionAttack.ofTable, ActionAttack.table, intField, lookup_tableOf_cons]

theorem ActionMove.ofTable_table (a : ActionMove) : ActionMove.ofTable a.table = a := by
  simp [ActionMove.ofTable, ActionMove.table, intField, lookup_tableOf_cons]

theorem CtrlInfo.ofTable_table (c : CtrlInfo) : CtrlInfo.ofTable c.table = c := by
  have hpid : intField c.table 0 = c.pid := by simp [CtrlInfo.table, intField, lookup_tableOf_cons]
  have haction : intField c.table 1 = c.action := by simp [CtrlInfo.table, intField, lookup_tableOf_cons]
  have henter : c.table.lookup 2 = c.enterInfo.map fun a => .struct a.table := by
    simp [CtrlInfo.table, lookup_tableOf_cons]
  have hattack : c.table.lookup 3 = c.attackInfo.map fun a => .struct a.table := by
    simp [CtrlInfo.table, lookup_tableOf_cons]
  have hmove : c.table.lookup 4 = c.moveInfo.map fun a => .struct a.table := by
    simp [CtrlInfo.table, lookup_tableOf_cons]
  rw [CtrlInfo.ofTable, hpid, haction, henter, hattack, hmove, map_struct ActionEnter.ofTable_table,
    map_struct ActionAttack.ofTable_table, map_struct ActionMove.ofTable_table]

/-- A sequence of structs that are read as they were written. -/
theorem toStructs_map {α : Type} (table : α → List (ℕ × Value)) (l : List α) :
    (Value.array (l.map fun a => .struct (table a))).toStructs? = some (l.map table) := by
  rw [Value.toStructs?, List.mapM_map]
  induction l with
  | nil => rfl
  | cons a l ih =>
      rw [List.mapM_cons, ih]
      rfl

/-- A number is read from its integer. -/
theorem natField_of_lookup {t : List (ℕ × Value)} {tag n : ℕ} (h : t.lookup tag = some (.integer n)) :
    natField t tag = some n := by
  have hint : intField t tag = some (n : ℤ) := by
    rw [intField, h]
    rfl
  rw [natField, hint, Option.bind_some, if_pos (Int.natCast_nonneg n), Int.toNat_natCast]

theorem FrameInfo.ofTable_table (f : FrameInfo) : FrameInfo.ofTable f.table = some f := by
  have hnumber : natField f.table 0 = some f.frameNumber :=
    natField_of_lookup (by simp [FrameInfo.table, lookup_tableOf_cons])
  have hctrl : (f.table.lookup 1).bind Value.toStructs? = some (f.ctrlData.map CtrlInfo.table) := by
    have hlookup : f.table.lookup 1 = some (.array (f.ctrlData.map fun c => .struct c.table)) := by
      simp [FrameInfo.table, lookup_tableOf_cons]
    rw [hlookup, Option.bind_some, toStructs_map]
  have htime : natField f.table 2 = some f.timestamp :=
    natField_of_lookup (by simp [FrameInfo.table, lookup_tableOf_cons])
  have hsame : (f.ctrlData.map CtrlInfo.table).map CtrlInfo.ofTable = f.ctrlData := by
    rw [List.map_map]
    exact (List.map_congr_left fun c _ => CtrlInfo.ofTable_table c).trans (List.map_id _)
  rw [FrameInfo.ofTable, hnumber, hctrl, htime]
  change some
    (FrameInfo.mk f.frameNumber ((f.ctrlData.map CtrlInfo.table).map CtrlInfo.ofTable) f.timestamp) = some f
  rw [hsame]

/-- **The table of a message is read as the message.** -/
theorem ServerMsg.ofRequest_table (m : ServerMsg) : ServerMsg.ofRequest m.proto m.table = some m := by
  cases m with
  | gs2cLoginsuc gameId rndseed timestamp frameCacheNum initTime =>
      simp [ServerMsg.ofRequest, ServerMsg.proto, ServerMsg.table, natField, intField, lookup_tableOf_cons,
        Value.toInteger?]
  | gs2cFrameCacheData frameCache =>
      have hlookup : (ServerMsg.gs2cFrameCacheData frameCache).table.lookup 0 =
          some (.array (frameCache.map fun f => .struct f.table)) := rfl
      have hread : (frameCache.map FrameInfo.table).mapM FrameInfo.ofTable = some frameCache := by
        rw [List.mapM_map]
        induction frameCache with
        | nil => rfl
        | cons f fs ih =>
            have hf : (FrameInfo.ofTable ∘ FrameInfo.table) f = some f := FrameInfo.ofTable_table f
            rw [List.mapM_cons, hf, ih rfl]
            rfl
      change
        ((((ServerMsg.gs2cFrameCacheData frameCache).table.lookup 0).bind Value.toStructs?).bind _).map _ = _
      rw [hlookup, Option.bind_some, toStructs_map, Option.bind_some, hread, Option.map_some]
  | gs2cPing session timestamp isResp =>
      simp [ServerMsg.ofRequest, ServerMsg.proto, ServerMsg.table, natField, intField, lookup_tableOf_cons,
        Value.toInteger?, Value.toBoolean?]
  | gs2cFrameData frameData =>
      have hlookup : (ServerMsg.gs2cFrameData frameData).table.lookup 0 = some (.struct frameData.table) := rfl
      change ((((ServerMsg.gs2cFrameData frameData).table.lookup 0).bind Value.toStruct?).bind _).map _ = _
      rw [hlookup, Option.bind_some, Value.toStruct?, Option.bind_some, FrameInfo.ofTable_table, Option.map_some]
  | gs2cRttData avgRtt minRtt maxRtt curRtt =>
      simp [ServerMsg.ofRequest, ServerMsg.proto, ServerMsg.table, intField, lookup_tableOf_cons,
        Value.toInteger?]

theorem ClientMsg.ofRequest_table {m : ClientMsg} {p : Proto} (h : m.proto? = some p) :
    ClientMsg.ofRequest p m.table = m := by
  cases m with
  | other => exact absurd h (Option.some_ne_none p).symm
  | c2gsLogin pid =>
      obtain rfl := Option.some.inj h
      simp [ClientMsg.ofRequest, ClientMsg.table, intField, lookup_tableOf_cons]
  | c2gsPing session =>
      obtain rfl := Option.some.inj h
      simp [ClientMsg.ofRequest, ClientMsg.table, intField, lookup_tableOf_cons]
  | c2gsCtrlData ctrlData =>
      obtain rfl := Option.some.inj h
      have hctrl : (ClientMsg.c2gsCtrlData ctrlData).table.lookup 0 = ctrlData.map fun c => .struct c.table := by
        simp [ClientMsg.table, lookup_tableOf_cons]
      rw [ClientMsg.ofRequest, hctrl, map_struct CtrlInfo.ofTable_table]
      rfl
  | c2gsRttData avgRtt minRtt maxRtt curRtt =>
      obtain rfl := Option.some.inj h
      simp [ClientMsg.ofRequest, ClientMsg.table, intField, lookup_tableOf_cons]

/-! ## Both directions -/

/-- The header of a request as it is sent. -/
def headerBytes (p : Proto) (sec : ℤ) : Bytes :=
  encodeStruct [(0, some (encodeInteger p.tag)), (1, none),
    (2, some (encodeObject (encodeStruct [(0, none), (1, none), (2, some (encodeInteger sec))])))]

theorem represents_headerOf {p : Proto} (hp : p ∈ protocols) {sec : ℤ} (hsec : Int64 sec) :
    Represents 64 basePackage (headerOf p sec) (headerBytes p sec) := by
  obtain ⟨hpos, hlt⟩ := tag_bounds hp
  have hud : Represents 63 ud [(2, .integer sec)]
      (encodeStruct [(0, none), (1, none), (2, some (encodeInteger sec))]) :=
    represents_of_entries [.int 0 none, .string 1 none, .int 2 (some sec)] rfl
      (List.forall_mem_cons.mpr ⟨Entry.sound_int fun v hv => absurd hv (Option.some_ne_none v).symm,
        List.forall_mem_cons.mpr ⟨Entry.sound_string 1 none, List.forall_mem_singleton.mpr (sound_some hsec)⟩⟩)
  refine represents_of_entries [.int 0 (some p.tag), .int 1 none,
    .struct 2 ud (fun v => [(2, .integer v)])
      (fun v => encodeStruct [(0, none), (1, none), (2, some (encodeInteger v))]) (some sec)] rfl
    (List.forall_mem_cons.mpr ⟨sound_some ⟨by omega, by omega⟩, List.forall_mem_cons.mpr
      ⟨Entry.sound_int fun v hv => absurd hv (Option.some_ne_none v).symm, List.forall_mem_singleton.mpr ?_⟩⟩)
  exact Entry.sound_struct fun v hv => Option.some.inj hv ▸ hud

/-- `spSend` packs what `host:attach` does. -/
theorem requestBytes_serverMsg {m : ServerMsg} (h : AllInt64 m.integers) {sec : ℕ} (hsec : Int64 sec) :
    ∃ b, requestBytes m.proto.name m.table sec = some b ∧ spSend m sec = spack b := by
  have hname := protoOfName_serverMsg m
  obtain ⟨-, hheader⟩ := represents_headerOf (List.mem_of_find?_eq_some hname) hsec
  obtain ⟨-, hcontent⟩ := @represents_serverMsg 59 _ h
  refine ⟨headerBytes m.proto sec ++ m.encode, ?_, ?_⟩
  · rw [requestBytes, hname, Option.bind_eq_bind, Option.bind_some, Game.encode, hheader, Option.bind_eq_bind,
      Option.bind_some, Game.encode, hcontent]
    rfl
  · rw [headerBytes, tag_proto]
    rfl

/-- **The client reads what the server sends.** For every message whose integers have 64 bits: the request is
made, it is as long as the wire of the server takes it to be, and when it packs, the client dispatches the
message that was sent. -/
theorem rpcDispatch_spSend {m : ServerMsg} (h : AllInt64 m.integers) {sec : ℕ} (hsec : Int64 sec)
    (behind : ℕ → UInt8) :
    ∃ bytes, request m.proto.name m.table sec behind = some bytes ∧ bytes.length = (spSend m sec).length ∧
      (sprotoWire.packs m sec = true → ∀ x,
        (rpcDispatch bytes x).map (fun r => ServerMsg.ofRequest r.1 r.2) = .ok (some m)) := by
  obtain ⟨b, hb, hspack⟩ := requestBytes_serverMsg h hsec
  obtain ⟨bytes, hrequest, hdispatch⟩ := dispatch_request (protoOfName_serverMsg m)
    (@represents_serverMsg 59 _ h).1 hsec behind
  have hbytes : bytes = sprotoPack b behind := by
    rw [request, hb, Option.map_some, Option.some_inj] at hrequest
    exact hrequest.symm
  have hlength : bytes.length = (spSend m sec).length := by
    rw [hbytes, hspack]
    rcases sprotoPack_eq b behind with heq | ⟨-, -, -, -, heq⟩
    · rw [heq]
    · exact heq
  refine ⟨bytes, hrequest, hlength, fun hpacks x => ?_⟩
  have hlt : bytes.length < 65536 := by
    rw [hlength]
    exact of_decide_eq_true hpacks
  rw [(hdispatch hlt x).2]
  change Except.ok (ServerMsg.ofRequest m.proto m.table) = _
  rw [ServerMsg.ofRequest_table]

/-- **The server reads what a client sends.** For every message whose integers have 64 bits: the request is made,
and if its length fits into two bytes, the server dispatches the message that was sent. -/
theorem hostDispatch_clientMsg {m : ClientMsg} {p : Proto} (hp : m.proto? = some p) (h : AllInt64 m.integers)
    {sec : ℤ} (hsec : Int64 sec) (behind : ℕ → UInt8) :
    ∃ bytes, request p.name m.table sec behind = some bytes ∧ (bytes.length < 2 ^ 16 → ∀ x,
      (hostDispatch bytes x).map (fun r => ClientMsg.ofRequest r.1 r.2) = .ok m) := by
  obtain ⟨bytes, hrequest, hdispatch⟩ := dispatch_request (protoOfName_clientMsg hp)
    (@typed_clientMsg 59 _ _ hp h) hsec behind
  refine ⟨bytes, hrequest, fun hlt x => ?_⟩
  rw [(hdispatch hlt x).1]
  change Except.ok (ClientMsg.ofRequest p m.table) = _
  rw [ClientMsg.ofRequest_table hp]

end FrameSync
