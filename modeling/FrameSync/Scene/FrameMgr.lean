import FrameSync.Wire.Protocol

/-! # The frame manager of a game

`frame_mgr.lua`. `FrameMgr` reads the Lua tables as values. The source shares them: the frame that
`frame_skip` builds holds a *reference* to the live control queue, which only afterwards is replaced
by a fresh table. `FrameMgrHeap` keeps the references, and `FrameMgrHeap.view_step` shows that the
sharing is never observed, so that everything above may work with values. -/

namespace FrameSync

/-! ## Tables as values -/

/-- `FrameMgr`, with its tables read as lists. -/
structure FrameMgr where
  /-- `m_CtrlDataQueue` -/
  ctrlDataQueue : List CtrlInfo
  /-- `m_FrameCacheQueue` -/
  frameCacheQueue : List FrameInfo
  /-- `m_CurFrameNo` -/
  curFrameNo : ℕ
  deriving Repr, DecidableEq

namespace FrameMgr

/-- `FrameMgr:init` -/
def init : FrameMgr := ⟨[], [], 1⟩

/-- The table `param` that `frame_skip` builds and broadcasts. -/
def param (m : FrameMgr) (now : ℕ) : FrameInfo := ⟨m.curFrameNo, m.ctrlDataQueue, now⟩

/-- `FrameMgr:frame_skip`, where `raised` says whether `BC2Players` raised. -/
def frameSkip (m : FrameMgr) (now : ℕ) (raised : Bool) : FrameMgr :=
  if raised then m
  else ⟨[], m.frameCacheQueue ++ [m.param now], m.curFrameNo + 1⟩

/-- `FrameMgr:push_frame`. Inserting `nil` into a Lua table inserts nothing. -/
def pushFrame (m : FrameMgr) (ctrlData : Option CtrlInfo) : FrameMgr :=
  { m with ctrlDataQueue := m.ctrlDataQueue ++ ctrlData.toList }

/-- `FrameMgr:frame_cache` -/
def frameCache (m : FrameMgr) : List FrameInfo := m.frameCacheQueue

/-- Every entry pushed so far, in order: those in frames, then those waiting. -/
def entries (m : FrameMgr) : List CtrlInfo :=
  m.frameCacheQueue.flatMap FrameInfo.ctrlData ++ m.ctrlDataQueue

@[simp] theorem param_ctrlData (m : FrameMgr) (now : ℕ) :
    (m.param now).ctrlData = m.ctrlDataQueue := rfl

@[simp] theorem frameSkip_true (m : FrameMgr) (now : ℕ) : m.frameSkip now true = m := rfl

@[simp] theorem frameSkip_false (m : FrameMgr) (now : ℕ) :
    m.frameSkip now false = ⟨[], m.frameCacheQueue ++ [m.param now], m.curFrameNo + 1⟩ := rfl

@[simp] theorem pushFrame_frameCacheQueue (m : FrameMgr) (c : Option CtrlInfo) :
    (m.pushFrame c).frameCacheQueue = m.frameCacheQueue := rfl

@[simp] theorem pushFrame_ctrlDataQueue (m : FrameMgr) (c : Option CtrlInfo) :
    (m.pushFrame c).ctrlDataQueue = m.ctrlDataQueue ++ c.toList := rfl

@[simp] theorem pushFrame_curFrameNo (m : FrameMgr) (c : Option CtrlInfo) :
    (m.pushFrame c).curFrameNo = m.curFrameNo := rfl

@[simp] theorem entries_pushFrame (m : FrameMgr) (c : Option CtrlInfo) :
    (m.pushFrame c).entries = m.entries ++ c.toList := by
  simp [entries, List.append_assoc]

/-- A tick moves the waiting entries into a frame, if it does anything. -/
@[simp] theorem entries_frameSkip (m : FrameMgr) (now : ℕ) (raised : Bool) :
    (m.frameSkip now raised).entries = m.entries := by
  cases raised
  · simp [entries, param]
  · rfl

/-- One call on a frame manager. -/
inductive Op
  /-- `push_frame(ctrl_data)` -/
  | pushFrame (ctrlData : Option CtrlInfo)
  /-- `frame_skip()` at time `now`, with `BC2Players` raising or not. -/
  | frameSkip (now : ℕ) (raised : Bool)
  deriving Repr, DecidableEq

/-- What an operation pushes. -/
def Op.pushed : Op → List CtrlInfo
  | .pushFrame c => c.toList
  | .frameSkip .. => []

/-- The clock reading of a tick. -/
def Op.clock : Op → Option ℕ
  | .pushFrame _ => none
  | .frameSkip now _ => some now

/-- One operation. -/
def step (m : FrameMgr) : Op → FrameMgr
  | .pushFrame c => m.pushFrame c
  | .frameSkip now raised => m.frameSkip now raised

/-- A sequence of operations. -/
def run (m : FrameMgr) (ops : List Op) : FrameMgr := ops.foldl step m

/-- What an operation does to the pushed entries. -/
theorem entries_step (m : FrameMgr) (op : Op) : (m.step op).entries = m.entries ++ op.pushed := by
  cases op with
  | pushFrame c => exact entries_pushFrame m c
  | frameSkip now raised => simp [step, Op.pushed]

/-- No entry is lost, duplicated or reordered by a sequence of operations. -/
theorem entries_run (m : FrameMgr) (ops : List Op) :
    (m.run ops).entries = m.entries ++ ops.flatMap Op.pushed := by
  induction ops generalizing m with
  | nil => simp [run]
  | cons op ops ih =>
      have h := ih (m.step op)
      rw [entries_step, List.append_assoc] at h
      simpa [run] using h

/-- The cache only grows, at its end. -/
theorem frameCacheQueue_prefix_step (m : FrameMgr) (op : Op) :
    m.frameCacheQueue <+: (m.step op).frameCacheQueue := by
  cases op with
  | pushFrame c => exact List.prefix_rfl
  | frameSkip now raised =>
      cases raised
      · exact List.prefix_append _ _
      · exact List.prefix_rfl

/-- The cache only grows, over a sequence of operations. -/
theorem frameCacheQueue_prefix_run (m : FrameMgr) (ops : List Op) :
    m.frameCacheQueue <+: (m.run ops).frameCacheQueue := by
  induction ops generalizing m with
  | nil => exact List.prefix_rfl
  | cons op ops ih => exact (frameCacheQueue_prefix_step m op).trans (ih (m.step op))

/-- The frames are numbered from 1 and the counter is one ahead of them. -/
structure Numbered (m : FrameMgr) : Prop where
  /-- The counter. -/
  curFrameNo : m.curFrameNo = m.frameCacheQueue.length + 1
  /-- The numbers of the cached frames. -/
  frameNumber : m.frameCacheQueue.map FrameInfo.frameNumber
    = List.range' 1 m.frameCacheQueue.length

theorem numbered_init : Numbered init := ⟨rfl, rfl⟩

theorem Numbered.step {m : FrameMgr} (h : m.Numbered) (op : Op) : (m.step op).Numbered := by
  cases op with
  | pushFrame c => exact ⟨h.curFrameNo, h.frameNumber⟩
  | frameSkip now raised =>
      cases raised with
      | true => exact h
      | false =>
          refine ⟨by simp [FrameMgr.step, h.curFrameNo], ?_⟩
          simp [FrameMgr.step, param, h.frameNumber, h.curFrameNo, List.range'_concat, Nat.add_comm]

theorem Numbered.run {m : FrameMgr} (h : m.Numbered) (ops : List Op) : (m.run ops).Numbered := by
  induction ops generalizing m with
  | nil => exact h
  | cons op ops ih => exact ih (h.step op)

/-- The frame at position `i` has number `i + 1`. -/
theorem Numbered.getElem? {m : FrameMgr} (h : m.Numbered) {i : ℕ} {f : FrameInfo}
    (hf : m.frameCacheQueue[i]? = some f) : f.frameNumber = i + 1 := by
  have hmap : (m.frameCacheQueue.map FrameInfo.frameNumber)[i]? = some f.frameNumber := by
    simp [hf]
  obtain ⟨hlt, -⟩ := List.getElem?_eq_some_iff.mp hf
  rw [h.frameNumber, List.getElem?_range' hlt] at hmap
  have := Option.some.inj hmap
  omega

/-- The timestamps of a run are those of its ticks, in order. -/
theorem timestamps_run (m : FrameMgr) (ops : List Op) :
    ((m.run ops).frameCacheQueue.map FrameInfo.timestamp).Sublist
      (m.frameCacheQueue.map FrameInfo.timestamp ++ ops.filterMap Op.clock) := by
  induction ops generalizing m with
  | nil => simp [run]
  | cons op ops ih =>
      have h := ih (m.step op)
      cases op with
      | pushFrame c => exact h
      | frameSkip now raised =>
          cases raised with
          | true =>
              refine h.trans ?_
              simp only [step, frameSkip_true, Op.clock, List.filterMap_cons]
              exact List.Sublist.append_left (List.sublist_cons_self _ _) _
          | false =>
              simpa [run, step, param, Op.clock, List.filterMap_cons] using h

end FrameMgr

/-! ## Tables by reference -/

/-- The table of one frame: its `ctrl_data` is a reference to a control table. -/
structure FrameTable where
  /-- `frame_number` -/
  frameNumber : ℕ
  /-- The reference held in `ctrl_data`. -/
  ctrlData : ℕ
  /-- `timestamp` -/
  timestamp : ℕ
  deriving Repr, DecidableEq

/-- `FrameMgr` over a heap of control tables. A reference is a position in `tables`. -/
structure FrameMgrHeap where
  /-- Every control table allocated so far. -/
  tables : List (List CtrlInfo)
  /-- `m_CtrlDataQueue`, a reference. -/
  ctrlDataQueue : ℕ
  /-- `m_FrameCacheQueue` -/
  frameCacheQueue : List FrameTable
  /-- `m_CurFrameNo` -/
  curFrameNo : ℕ
  deriving Repr, DecidableEq

namespace FrameMgrHeap

/-- The contents of a table. -/
def deref (h : FrameMgrHeap) (ref : ℕ) : List CtrlInfo := h.tables[ref]?.getD []

/-- `FrameMgr:init` -/
def init : FrameMgrHeap := ⟨[[]], 0, [], 1⟩

/-- `FrameMgr:frame_skip`: the frame takes the reference of the live queue; only when `BC2Players`
returned is the frame inserted and the queue replaced by a new table. -/
def frameSkip (h : FrameMgrHeap) (now : ℕ) (raised : Bool) : FrameMgrHeap :=
  let param : FrameTable := ⟨h.curFrameNo, h.ctrlDataQueue, now⟩
  if raised then h
  else
    { tables := h.tables ++ [[]]
      ctrlDataQueue := h.tables.length
      frameCacheQueue := h.frameCacheQueue ++ [param]
      curFrameNo := h.curFrameNo + 1 }

/-- `FrameMgr:push_frame`: `table.insert` into the table the live reference points at. -/
def pushFrame (h : FrameMgrHeap) (ctrlData : Option CtrlInfo) : FrameMgrHeap :=
  { h with tables := h.tables.modify h.ctrlDataQueue (· ++ ctrlData.toList) }

/-- One operation. -/
def step (h : FrameMgrHeap) : FrameMgr.Op → FrameMgrHeap
  | .pushFrame c => h.pushFrame c
  | .frameSkip now raised => h.frameSkip now raised

/-- A sequence of operations. -/
def run (h : FrameMgrHeap) (ops : List FrameMgr.Op) : FrameMgrHeap := ops.foldl step h

/-- A frame with its reference followed. -/
def frame (h : FrameMgrHeap) (f : FrameTable) : FrameInfo :=
  ⟨f.frameNumber, h.deref f.ctrlData, f.timestamp⟩

/-- The manager with all references followed. -/
def view (h : FrameMgrHeap) : FrameMgr :=
  ⟨h.deref h.ctrlDataQueue, h.frameCacheQueue.map h.frame, h.curFrameNo⟩

/-- The live queue is the newest table and no cached frame refers to it. -/
structure Unshared (h : FrameMgrHeap) : Prop where
  /-- The live queue is the newest table. -/
  newest : h.ctrlDataQueue + 1 = h.tables.length
  /-- The cached frames refer to older ones. -/
  older : ∀ f ∈ h.frameCacheQueue, f.ctrlData < h.ctrlDataQueue

theorem unshared_init : Unshared init := ⟨rfl, by simp [init]⟩

theorem Unshared.step {h : FrameMgrHeap} (hu : h.Unshared) (op : FrameMgr.Op) :
    (h.step op).Unshared := by
  cases op with
  | pushFrame c => exact ⟨by simpa [FrameMgrHeap.step, pushFrame] using hu.newest, hu.older⟩
  | frameSkip now raised =>
      cases raised with
      | true => exact hu
      | false =>
          refine ⟨by simp [FrameMgrHeap.step, frameSkip], fun f hf => ?_⟩
          have hlast := hu.newest
          simp only [FrameMgrHeap.step, frameSkip, Bool.false_eq_true, if_false,
            List.mem_append, List.mem_singleton] at hf ⊢
          rcases hf with hf | rfl
          · have := hu.older f hf
            omega
          · show h.ctrlDataQueue < h.tables.length
            omega

theorem Unshared.run {h : FrameMgrHeap} (hu : h.Unshared) (ops : List FrameMgr.Op) :
    (h.run ops).Unshared := by
  induction ops generalizing h with
  | nil => exact hu
  | cons op ops ih => exact ih (hu.step op)

/-- A push reaches the live table only, and no cached frame refers to that one. -/
theorem view_pushFrame {h : FrameMgrHeap} (hu : h.Unshared) (c : Option CtrlInfo) :
    (h.pushFrame c).view = h.view.pushFrame c := by
  have hlive : h.ctrlDataQueue < h.tables.length := by have := hu.newest; omega
  have hqueue : (h.pushFrame c).deref h.ctrlDataQueue = h.deref h.ctrlDataQueue ++ c.toList := by
    simp [deref, pushFrame, hlive]
  have hcache : h.frameCacheQueue.map (h.pushFrame c).frame = h.frameCacheQueue.map h.frame := by
    refine List.map_congr_left fun f hf => ?_
    have hne := (hu.older f hf).ne'
    simp [frame, deref, pushFrame, hne]
  show FrameMgr.mk _ _ _ = FrameMgr.mk _ _ _
  exact congrArg₂ (fun q cache => FrameMgr.mk q cache h.curFrameNo) hqueue hcache

/-- A successful tick hands the live table to the frame; the table that replaces it is new. -/
theorem view_frameSkip {h : FrameMgrHeap} (hu : h.Unshared) (now : ℕ) :
    (h.frameSkip now false).view = h.view.frameSkip now false := by
  have hlive : h.ctrlDataQueue < h.tables.length := by have := hu.newest; omega
  have hold : ∀ ref < h.tables.length, (h.frameSkip now false).deref ref = h.deref ref := by
    intro ref href
    simp [deref, frameSkip, List.getElem?_append_left href]
  have hqueue : (h.frameSkip now false).deref h.tables.length = [] := by simp [deref, frameSkip]
  have hcache : h.frameCacheQueue.map (h.frameSkip now false).frame
      = h.frameCacheQueue.map h.frame := by
    refine List.map_congr_left fun f hf => ?_
    simp only [frame, hold _ ((hu.older f hf).trans hlive)]
  have hnew : (h.frameSkip now false).frame ⟨h.curFrameNo, h.ctrlDataQueue, now⟩
      = h.view.param now := by
    simp only [frame, hold _ hlive, FrameMgr.param, view]
  have hframes : (h.frameCacheQueue ++ [FrameTable.mk h.curFrameNo h.ctrlDataQueue now]).map
      (h.frameSkip now false).frame = h.view.frameCacheQueue ++ [h.view.param now] := by
    rw [List.map_append, hcache, List.map_singleton, hnew]
    rfl
  show FrameMgr.mk _ _ _ = FrameMgr.mk _ _ _
  exact congrArg₂ (fun q cache => FrameMgr.mk q cache (h.curFrameNo + 1)) hqueue hframes

/-- **The sharing is never observed**: each operation acts on the tables by reference as it acts on
the tables as values. -/
theorem view_step {h : FrameMgrHeap} (hu : h.Unshared) (op : FrameMgr.Op) :
    (h.step op).view = h.view.step op := by
  cases op with
  | pushFrame c => exact view_pushFrame hu c
  | frameSkip now raised =>
      cases raised with
      | true => rfl
      | false => exact view_frameSkip hu now

/-- A sequence of operations by reference is the sequence on values. -/
theorem view_run {h : FrameMgrHeap} (hu : h.Unshared) (ops : List FrameMgr.Op) :
    (h.run ops).view = h.view.run ops := by
  induction ops generalizing h with
  | nil => rfl
  | cons op ops ih =>
      have := ih (hu.step op)
      rw [view_step hu] at this
      exact this

/-- **The frame manager loses, repeats and reorders no input.** After any operations whose ticks
read a nondecreasing clock: the frames are numbered from 1, the counter is one ahead, the
timestamps are nondecreasing, no later operation changes a frame once made, the entries in frames
followed by the waiting ones are exactly the entries pushed, and a tick that raises changes
nothing. -/
theorem frame_law (ops : List FrameMgr.Op) (hclock : (ops.filterMap FrameMgr.Op.clock).Pairwise (· ≤ ·)) :
    let m := (init.run ops).view
    (∀ i f, m.frameCacheQueue[i]? = some f → f.frameNumber = i + 1) ∧
    (m.frameCacheQueue.map FrameInfo.timestamp).Pairwise (· ≤ ·) ∧
    m.curFrameNo = m.frameCacheQueue.length + 1 ∧
    (∀ more, m.frameCacheQueue <+: ((init.run ops).run more).view.frameCacheQueue) ∧
    m.frameCacheQueue.flatMap FrameInfo.ctrlData ++ m.ctrlDataQueue
      = ops.flatMap FrameMgr.Op.pushed ∧
    (∀ now, (init.run ops).step (.frameSkip now true) = init.run ops) := by
  have hview : (init.run ops).view = FrameMgr.init.run ops := view_run unshared_init ops
  have hnum := FrameMgr.numbered_init.run ops
  simp only [hview]
  refine ⟨fun i f hf => hnum.getElem? hf, ?_, hnum.curFrameNo, fun more => ?_, ?_, fun _ => rfl⟩
  · exact hclock.sublist (FrameMgr.timestamps_run FrameMgr.init ops)
  · rw [view_run (unshared_init.run ops), hview]
    exact FrameMgr.frameCacheQueue_prefix_run _ more
  · exact FrameMgr.entries_run FrameMgr.init ops

/-- The law at a run with pushes, a failing tick and two ticks that succeed. -/
theorem frame_law_mixed :
    let ops := [.pushFrame (some {}), .frameSkip 2 true, .pushFrame none, .frameSkip 4 false,
      .pushFrame (some { pid := some 1 }), .frameSkip 4 false]
    (ops.filterMap FrameMgr.Op.clock).Pairwise (· ≤ ·) ∧
    ((init.run ops).view.frameCacheQueue.flatMap FrameInfo.ctrlData
      = [{}, { pid := some 1 }]) :=
  ⟨by decide, by
    have h := (frame_law [.pushFrame (some {}), .frameSkip 2 true, .pushFrame none,
      .frameSkip 4 false, .pushFrame (some { pid := some 1 }), .frameSkip 4 false]
      (by decide)).2.2.2.2.1
    exact h⟩

end FrameMgrHeap

end FrameSync
