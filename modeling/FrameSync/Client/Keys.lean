import FrameSync.Client.EntityIndex

/-! # Keys

`touch_key_down` and `touch_key_up` of `game.py` turn the key events of a player into entries, which
come back to every client in the frames of the server. `m_Dir` remembers the first of the movement
keys that are held, `m_InAttack` the attack keys. `no_stuck_input`: whatever is pressed and released,
and whenever the player enters anew, the direction of the player is that of a key that is held, and
there is none when no key is. -/

namespace FrameSync.Client

open Program Sproto

variable {γ : Type}

/-! ## Key events and their entries -/

/-- The keys of `pygame.locals`, as far as the client tells them apart. -/
inductive Key
  /-- `K_w` -/
  | w
  /-- `K_a` -/
  | a
  /-- `K_s` -/
  | s
  /-- `K_d` -/
  | d
  /-- `K_LEFT` -/
  | left
  /-- `K_RIGHT` -/
  | right
  /-- `K_UP` -/
  | up
  /-- `K_DOWN` -/
  | down
  /-- `K_RCTRL` -/
  | rctrl
  /-- `K_SPACE` -/
  | space
  /-- Any other key. -/
  | other (code : ℕ)
  deriving Repr, DecidableEq

/-- `DIR_MAP` -/
def dirMap : Key → Option ℤ
  | .w => some dirUp
  | .up => some dirUp
  | .a => some dirLeft
  | .left => some dirLeft
  | .s => some dirDown
  | .down => some dirDown
  | .d => some dirRight
  | .right => some dirRight
  | _ => none

/-- The keys that fire. -/
def Key.isAttack : Key → Bool
  | .rctrl => true
  | .space => true
  | _ => false

/-- The entry of a movement key. -/
def moveEntry (pid : Pid) (iDir status : ℤ) : CtrlInfo where
  pid := some pid
  action := some actionMove
  moveInfo := some ⟨some iDir, some status⟩

/-- The entry of an attack key. -/
def attackEntry (pid : Pid) (status : ℤ) : CtrlInfo where
  pid := some pid
  action := some actionAttack
  attackInfo := some ⟨some status⟩

/-- The body of both handlers: what a player that is in the game sends. `DIR_MAP` has the eight keys
that are asked for first. -/
def touchKey (status : ℤ) (pid : Pid) (key : Key) : Option CtrlInfo :=
  match dirMap key with
  | some iDir => some (moveEntry pid iDir status)
  | none => if key.isAttack then some (attackEntry pid status) else none

/-- `CPlayerObj.touch_key_up` -/
def touchKeyUp : Pid → Key → Option CtrlInfo := touchKey statusKeyUp

/-- `CPlayerObj.touch_key_down` -/
def touchKeyDown : Pid → Key → Option CtrlInfo := touchKey statusKeyDown

/-- `KEYDOWN` or `KEYUP` of a key. -/
structure KeyEvent where
  /-- `event.key` -/
  key : Key
  /-- The key went down, and not up. -/
  down : Bool
  deriving Repr, DecidableEq

/-- The branches of `listen_event` on a key event of a player in the game. -/
def KeyEvent.entry (pid : Pid) (e : KeyEvent) : Option CtrlInfo :=
  if e.down then touchKeyDown pid e.key else touchKeyUp pid e.key

/-- The key is down after the events: its last event was a `KEYDOWN`. -/
def held (events : List KeyEvent) (key : Key) : Bool :=
  events.foldl (fun isDown e => if e.key = key then e.down else isDown) false

/-- An entry of the player that is none of `ENTER` and `LEAVE`. -/
def isInput (pid : Pid) (ctrl : CtrlInfo) : Bool :=
  ctrl.pid = some pid && ctrl.action ≠ some actionEnter && ctrl.action ≠ some actionLeave

/-- `m_InAttack`, of a player. -/
def Entity.inAttack (e : Entity) : Bool :=
  match e.body with
  | .player _ _ inAttack _ => inAttack
  | _ => false

/-! ## The moments of a client -/

/-- A part of what a client does to its simulation. Between two of them the client can be looked
at. -/
inductive Beat
  /-- `SetRndSeed` -/
  | seed (rndseed : ℕ)
  /-- `update_frame` begins. -/
  | began (frameNumber : ℕ)
  /-- `update_frame` applies an entry. -/
  | entry (ctrl : CtrlInfo)
  /-- `update_ctrl_once` -/
  | ctrlOnce
  /-- The end of `update_logic`. -/
  | finish
  deriving Repr, DecidableEq

/-- The entry that is applied. -/
def Beat.ctrl : Beat → Option CtrlInfo
  | .entry ctrl => some ctrl
  | _ => none

/-- What the player did, among all the entries that were applied. -/
def inputs (pid : Pid) (beats : List Beat) : List CtrlInfo :=
  (beats.filterMap Beat.ctrl).filter (isInput pid)

/-- The parts of a frame. -/
def frameBeats (msg : FrameInfo) : List Beat :=
  .began msg.frameNumber :: .ctrlOnce :: msg.ctrlData.flatMap fun ctrl => [.entry ctrl, .ctrlOnce]

/-- The parts of a call. -/
def Action.beats : Action → List Beat
  | .nothing => []
  | .seed rndseed => [.seed rndseed]
  | .frame data => frameBeats data
  | .finish => [.finish]

section Run

variable [PyRandom γ] [DictOrder ℕ]

/-- Do it. -/
def Beat.run : Beat → Method γ Unit
  | .seed rndseed => GameObj.setRndSeed rndseed
  | .began frameNumber => modify fun g => { g with gsFrameNo := frameNumber }
  | .entry ctrl => GameObj.act ctrl
  | .ctrlOnce => GameObj.updateCtrlOnce
  | .finish => GameObj.finish

/-- The entries of a frame. -/
theorem forM_entries (ctrls : List CtrlInfo) :
    (ctrls.flatMap fun ctrl => [Beat.entry ctrl, .ctrlOnce]).forM (Beat.run (γ := γ))
      = ctrls.forM GameObj.updateEntry := by
  induction ctrls with
  | nil => rfl
  | cons ctrl ctrls ih =>
      rw [List.flatMap_cons]
      show (GameObj.act ctrl >>= fun _ => GameObj.updateCtrlOnce >>= fun _ =>
          (ctrls.flatMap fun ctrl => [Beat.entry ctrl, .ctrlOnce]).forM Beat.run)
        = GameObj.updateEntry ctrl >>= fun _ => ctrls.forM GameObj.updateEntry
      rw [ih, GameObj.updateEntry, bind_assoc]

/-- **What a client calls is made of these parts.** -/
theorem forM_beats (a : Action) : a.beats.forM (Beat.run (γ := γ)) = a.call := by
  cases a with
  | nothing => rfl
  | seed rndseed => exact bind_pure_unit (x := GameObj.setRndSeed rndseed)
  | finish => exact bind_pure_unit (x := GameObj.finish)
  | frame data =>
      show (_ >>= fun _ => GameObj.updateCtrlOnce >>= fun _ =>
        (data.ctrlData.flatMap fun ctrl => [Beat.entry ctrl, .ctrlOnce]).forM Beat.run) = _
      rw [forM_entries]
      rfl

end Run

/-- The moments of an event of a client. -/
def Fsm.calls (c : Fsm γ) (e : Event) : List Beat :=
  match c.pace.step c.game.gameOver e with
  | none => []
  | some (_, a) => a.beats

/-- **A run of a client is a list of moments.** -/
theorem Fsm.beats_run [PyRandom γ] [DictOrder ℕ] {pid : Pid} {gen : γ} {msg : Loginsuc}
    {tr : List (Fsm γ × Event)} {c : Fsm γ} (h : Run step (init pid gen msg) tr c) :
    (tr.flatMap fun x => x.1.calls x.2).forM Beat.run (GameObj.init pid gen) = .ok ((), c.game) := by
  induction h with
  | nil => rfl
  | @snoc tr c c' e hrun hstep ih =>
      obtain ⟨a, hpace, hcall⟩ := step_eq_some.mp hstep
      have hcalls : [(c, e)].flatMap (fun x => x.1.calls x.2) = a.beats := by
        rw [List.flatMap_singleton, calls, hpace]
      rw [← forM_beats] at hcall
      rw [List.flatMap_append, hcalls]
      exact forM_append_eq_ok.mpr ⟨(), c.game, ih, hcall⟩

namespace GameObj

/-! ## What else happens to a player -/

/-- Two objects with the same pid, direction and fire. -/
structure SameInput (e e' : Entity) : Prop where
  /-- `m_Pid` -/
  pid : e'.pid? = e.pid?
  /-- `m_Dir` -/
  dir : e'.dir = e.dir
  /-- `m_InAttack` -/
  inAttack : e'.inAttack = e.inAttack

/-- The players of the second game were in the first, with the same direction and fire. -/
def KeepsInput (g g' : GameObj γ) : Prop :=
  ∀ id e', g'.objects.lookup id = some e' → e'.pid? ≠ none →
    ∃ e, g.objects.lookup id = some e ∧ SameInput e e'

/-- The same objects. -/
theorem keepsInput_of_objects {g g' : GameObj γ} (h : g'.objects = g.objects) : KeepsInput g g' :=
  fun _ e' he' _ => ⟨e', h ▸ he', rfl, rfl, rfl⟩

instance : Std.Refl (KeepsInput (γ := γ)) := ⟨fun _ => keepsInput_of_objects rfl⟩

instance : IsTrans (GameObj γ) KeepsInput where
  trans g g' g'' h h' := by
    intro id e'' he'' hpid
    obtain ⟨e', he', hsame'⟩ := h' id e'' he'' hpid
    obtain ⟨e, he, hsame⟩ := h id e' he' (hsame'.pid ▸ hpid)
    exact ⟨e, he, hsame'.pid.trans hsame.pid, hsame'.dir.trans hsame.dir,
      hsame'.inAttack.trans hsame.inAttack⟩

/-- An object that is no player is created. -/
theorem keepsInput_create (g : GameObj γ) {e : Entity} (h : e.pid? = none) :
    KeepsInput g (g.create e) := by
  intro id e' he' hpid
  rw [lookup_create] at he'
  split at he'
  · obtain rfl := Option.some.inj he'
    exact absurd h hpid
  · exact ⟨e', he', rfl, rfl, rfl⟩

/-- An object is destroyed. -/
theorem keepsInput_unstore (g : GameObj γ) (id : ℕ) (e : Entity) : KeepsInput g (g.unstore id e) := by
  intro id' e' he' _
  rw [lookup_unstore] at he'
  split at he'
  · cases he'
  · exact ⟨e', he', rfl, rfl, rfl⟩

/-- An object is written that was there at the start. -/
theorem KeepsInput.put {g g' : GameObj γ} (h : KeepsInput g g') {id : ℕ} {e e' : Entity}
    (he : g.objects.lookup id = some e) (hsame : SameInput e e') : KeepsInput g (g'.put id e') := by
  intro id' x hx hpid
  rw [GameObj.put, AList.lookup_replace_eq] at hx
  split at hx
  · rename_i hid
    obtain ⟨y, -, rfl⟩ := Option.map_eq_some_iff.mp hx
    exact ⟨e, hid ▸ he, hsame⟩
  · exact h id' x hx hpid

theorem keepsInput_destroyEntity (id : ℕ) :
    Leaves KeepsInput (destroyEntity id : Method γ Unit) := by
  intro g a g' h
  obtain ⟨e, g₁, hread, hdelete⟩ := bind_eq_ok.mp h
  obtain ⟨rfl, -⟩ := object_eq_ok hread
  obtain rfl := delete_eq_ok hdelete
  exact keepsInput_unstore g id e

theorem keepsInput_finish [DictOrder ℕ] : Leaves KeepsInput (finish : Method γ Unit) := by
  refine Leaves.get_bind fun g => Leaves.ite ?_ (Leaves.pure _)
  refine Leaves.get_bind fun g => ?_
  refine Leaves.bind (Leaves.forM keepsInput_destroyEntity _) fun _ => ?_
  exact Leaves.get_bind fun g => Leaves.forM keepsInput_destroyEntity _

/-- A hit. -/
theorem sameInput_onHit (e : Entity) : SameInput e e.onHit := ⟨rfl, rfl, rfl⟩

/-- A move. -/
theorem dir_advance (e : Entity) : e.advance.dir = e.dir := by
  have hmove : ∀ dir, (e.moveBy dir).dir = e.dir := by
    intro dir
    unfold Entity.moveBy
    split_ifs
    all_goals rfl
  have hclamp : ∀ e : Entity, e.clamp.dir = e.dir := by
    intro e
    unfold Entity.clamp
    split_ifs
    all_goals rfl
  unfold Entity.advance
  split
  · rfl
  · split_ifs
    · rfl
    · rw [hclamp, hmove]
    · rw [hmove]

theorem sameInput_advance (e : Entity) : SameInput e e.advance :=
  ⟨e.pid?_advance, dir_advance e, by rw [Entity.inAttack, Entity.inAttack, e.body_advance]⟩

theorem keepsInput_collidePair (id₁ id₂ : ℕ) :
    Leaves KeepsInput (collidePair id₁ id₂ : Method γ Unit) := by
  intro g a g' h
  obtain ⟨e₁, g₁, hread₁, h⟩ := bind_eq_ok.mp h
  obtain ⟨rfl, he₁⟩ := object_eq_ok hread₁
  obtain ⟨e₂, g₂, hread₂, h⟩ := bind_eq_ok.mp h
  obtain ⟨rfl, he₂⟩ := object_eq_ok hread₂
  split at h
  · obtain rfl := (Prod.mk.inj (Except.ok.inj h)).2
    exact ((keepsInput_of_objects rfl).put he₁ (sameInput_onHit e₁)).put he₂ (sameInput_onHit e₂)
  · obtain rfl := (Prod.mk.inj (Except.ok.inj h)).2
    exact Std.Refl.refl g

/-- A bullet is fired, or none. -/
theorem keepsInput_shoot (obj : Entity) (ackLoopCnt : ℕ) :
    Leaves KeepsInput (shoot obj ackLoopCnt : Method γ Unit) := by
  refine Leaves.ite (fun g a g' h => ?_) (Leaves.pure _)
  obtain rfl := (Prod.mk.inj (Except.ok.inj h)).2
  exact keepsInput_create g rfl

/-- The shots are counted. -/
theorem sameInput_counted {e : Entity} {pid : Pid} {name : Bytes} {n : ℕ}
    (h : e.body = .player pid name true n) (n' : ℕ) :
    SameInput e { e with body := .player pid name true n' } := by
  refine ⟨?_, rfl, ?_⟩
  · rw [Entity.pid?, Entity.pid?, h]
  · rw [Entity.inAttack, Entity.inAttack, h]

/-- A player may fire, and then counts its shots. -/
theorem KeepsInput.onUpdate {g g₁ g₂ : GameObj γ} (h : KeepsInput g g₁) {id : ℕ} {e obj : Entity}
    (he : g.objects.lookup id = some e) (hsame : SameInput e obj) {a : Unit}
    (hrun : GameObj.onUpdate id obj g₁ = .ok (a, g₂)) : KeepsInput g g₂ := by
  have hidle : (pure () : Method γ Unit) g₁ = .ok (a, g₂) → KeepsInput g g₂ := by
    intro hpure
    obtain rfl := (Prod.mk.inj (Except.ok.inj hpure)).2
    exact h
  unfold GameObj.onUpdate at hrun
  cases hbody : obj.body with
  | enemy | bullet =>
      rw [hbody] at hrun
      exact hidle hrun
  | player pid name inAttack n =>
      rw [hbody] at hrun
      cases inAttack with
      | false => exact hidle hrun
      | true =>
          obtain ⟨b, g₃, hshoot, hput⟩ := bind_eq_ok.mp hrun
          have hshot := IsTrans.trans _ _ _ h (keepsInput_shoot _ _ _ _ _ hshoot)
          obtain rfl := (Prod.mk.inj (Except.ok.inj hput)).2
          have hcount := sameInput_counted hbody (n + 1)
          exact hshot.put he ⟨hcount.pid.trans hsame.pid, hcount.dir.trans hsame.dir,
            hcount.inAttack.trans hsame.inAttack⟩

theorem keepsInput_update (id : ℕ) : Leaves KeepsInput (update id : Method γ Unit) := by
  intro g a g' h
  obtain ⟨e, g₁, hread, h⟩ := bind_eq_ok.mp h
  obtain ⟨rfl, he⟩ := object_eq_ok hread
  split at h
  · obtain rfl := remove_eq_ok he h
    exact IsTrans.trans _ _ _ (keepsInput_of_objects (g.objects_rewarded e))
      (keepsInput_unstore _ id e)
  · -- the object is written, and perhaps once more after a bullet was created
    obtain ⟨b, g₂, hput, h⟩ := bind_eq_ok.mp h
    obtain rfl := (Prod.mk.inj (Except.ok.inj hput)).2
    have hmoved := (keepsInput_of_objects (g := g) rfl).put he (sameInput_advance e)
    exact hmoved.onUpdate he (sameInput_advance e) h

section Frame

variable [PyRandom γ] [DictOrder ℕ]

omit [DictOrder ℕ] in
theorem keepsInput_spawnEnemy : Leaves KeepsInput (spawnEnemy : Method γ Unit) := by
  intro g a g' h
  have htraces := Observing.traces_spawnEnemy (R := fun _ _ _ => True)
    (P := fun g₁ => g₁.objects = g.objects) (Q := KeepsInput g)
    (fun _ _ h => ⟨trivial, h⟩) (fun g₁ e h hnew => ⟨trivial, ?_⟩)
    fun _ h => keepsInput_of_objects h
  · rw [← Observing.run_spawnEnemy] at h
    exact (htraces g rfl a g' h).2
  · refine IsTrans.trans _ _ _ (keepsInput_of_objects h) (keepsInput_create g₁ ?_)
    rw [Entity.pid?, hnew.body]

/-- **`update_ctrl_once` changes no direction and no fire.** -/
theorem keepsInput_updateCtrlOnce : Leaves KeepsInput (updateCtrlOnce : Method γ Unit) := by
  have hcollide : ∀ outer inner, Leaves KeepsInput (collide outer inner : Method γ Unit) := by
    intro outer inner
    refine Leaves.get_bind fun g => Leaves.forM (fun id₁ => ?_) _
    exact Leaves.get_bind fun g => Leaves.forM (fun id₂ => keepsInput_collidePair id₁ id₂) _
  refine keepsInput_spawnEnemy.bind fun _ => ?_
  refine (hcollide _ _).bind fun _ => (hcollide _ _).bind fun _ => ?_
  exact Leaves.get_bind fun g => Leaves.forM keepsInput_update _

end Frame

/-! ## What an entry does to a player -/

/-- The entry is a move of this direction and status. -/
def Moves (iDir status : ℤ) (ctrl : CtrlInfo) : Prop :=
  ctrl.action = some actionMove ∧ ctrl.moveInfo = some ⟨some iDir, some status⟩

/-- The entry is an attack of this status. -/
def Attacks (status : ℤ) (ctrl : CtrlInfo) : Prop :=
  ctrl.action = some actionAttack ∧ ctrl.attackInfo = some ⟨some status⟩

/-- What an entry of a player does to it, if it neither enters nor leaves. -/
inductive Applied (ctrl : CtrlInfo) (e : Entity) : Entity → Prop
  /-- `handle_attack` -/
  | attack (status : ℤ) (h : Attacks status ctrl) : Applied ctrl e (e.handleAttack status)
  /-- `handle_move` -/
  | move (iDir status : ℤ) (h : Moves iDir status ctrl) : Applied ctrl e (e.handleMove iDir status)
  /-- An unknown action. -/
  | nothing (hattack : ctrl.action ≠ some actionAttack) (hmove : ctrl.action ≠ some actionMove) :
      Applied ctrl e e

/-- What is left of the player's object after an entry: it is new, or the entry is not its own, or it
was applied. -/
def Handled (pid : Pid) (ctrl : CtrlInfo) (g : GameObj γ) (e' : Entity) (id : ℕ) : Prop :=
  (e'.dir = none ∧ e'.inAttack = false) ∨ ∃ e, g.objects.lookup id = some e ∧ e.pid? = some pid ∧
    if isInput pid ctrl then Applied ctrl e e' else e' = e

/-- An entry that is not the player's own leaves its object as it is. -/
theorem handled_of_eq {pid : Pid} {ctrl : CtrlInfo} {g : GameObj γ} {e : Entity} {id : ℕ}
    (he : g.objects.lookup id = some e) (hpid : e.pid? = some pid) (h : isInput pid ctrl = false) :
    Handled pid ctrl g e id := by
  refine Or.inr ⟨e, he, hpid, ?_⟩
  rw [h]
  rfl

theorem isInput_eq_true {pid : Pid} {ctrl : CtrlInfo} : isInput pid ctrl = true ↔
    ctrl.pid = some pid ∧ ctrl.action ≠ some actionEnter ∧ ctrl.action ≠ some actionLeave := by
  simp [isInput, and_assoc]

theorem isInput_eq_false {pid : Pid} {ctrl : CtrlInfo} (h : ctrl.pid ≠ some pid ∨
    ctrl.action = some actionEnter ∨ ctrl.action = some actionLeave) : isInput pid ctrl = false := by
  rw [← Bool.not_eq_true, isInput_eq_true]
  rintro ⟨hpid, henter, hleave⟩
  rcases h with h | h | h
  · exact h hpid
  · exact henter h
  · exact hleave h

section Act

variable [DictOrder ℕ]

/-- What `dropPlayer` leaves was there before. -/
theorem dropPlayer_objects {pid : Pid} {g g' : GameObj γ} {a : Unit}
    (h : dropPlayer pid g = .ok (a, g')) (id : ℕ) (e : Entity)
    (he : g'.objects.lookup id = some e) : g.objects.lookup id = some e := by
  rw [dropPlayer, get_bind_apply] at h
  cases hfind : g.getPlayer pid with
  | none =>
      rw [hfind] at h
      obtain rfl := (Prod.mk.inj (Except.ok.inj h)).2
      exact he
  | some id₀ =>
      rw [hfind] at h
      obtain ⟨e₁, g₁, hread, hdelete⟩ := bind_eq_ok.mp h
      obtain ⟨rfl, -⟩ := object_eq_ok hread
      obtain rfl := delete_eq_ok hdelete
      rw [lookup_unstore] at he
      split at he
      · cases he
      · exact he

/-- What a handler does: it writes the player's object, the only one of its pid. -/
theorem handle_objects {α : Type} {pid : Pid} {read : Method γ α} {handler : α → Entity → Entity}
    {g g' : GameObj γ} {a : Unit} (hg : g.Consistent)
    (hread : ∀ a g', read g = .ok (a, g') → g = g') (h : handle pid read handler g = .ok (a, g'))
    (id : ℕ) (e' : Entity) (he' : g'.objects.lookup id = some e') :
    (∃ e, g.objects.lookup id = some e ∧ e.pid? ≠ some pid ∧ e' = e) ∨
      ∃ e b, g.objects.lookup id = some e ∧ e.pid? = some pid ∧ read g = .ok (b, g) ∧ e' = handler b e := by
  rw [handle, get_bind_apply] at h
  cases hfind : g.getPlayer pid with
  | none =>
      rw [hfind] at h
      obtain rfl := (Prod.mk.inj (Except.ok.inj h)).2
      refine Or.inl ⟨e', he', fun hpid => ?_, rfl⟩
      refine hg.getPlayer_eq_none.mp hfind id ?_
      rw [pidAt, he']
      exact hpid
  | some id₀ =>
      rw [hfind] at h
      -- The handler reads the arguments and writes back one object.
      obtain ⟨e₀, g₁, hobj, h⟩ := bind_eq_ok.mp h
      obtain ⟨rfl, he₀⟩ := object_eq_ok hobj
      obtain ⟨b, g₂, hb, h⟩ := bind_eq_ok.mp h
      obtain rfl := hread _ _ hb
      obtain rfl := (Prod.mk.inj (Except.ok.inj h)).2
      have hpid₀ := hg.getPlayer_eq_some.mp hfind
      change (g.put id₀ (handler b e₀)).objects.lookup id = some e' at he'
      rw [lookup_put he₀] at he'
      split at he'
      · rename_i hid
        obtain rfl := Option.some.inj he'
        rw [pidAt, he₀] at hpid₀
        exact Or.inr ⟨e₀, b, hid ▸ he₀, hpid₀, hb, rfl⟩
      · rename_i hid
        refine Or.inl ⟨e', he', fun hpid => hid (hg.unique id id₀ pid ?_ hpid₀), rfl⟩
        rw [pidAt, he']
        exact hpid

/-- An entry that goes to a handler. -/
theorem handled_of_handle {α : Type} {pid pid₀ : Pid} {ctrl : CtrlInfo} {read : Method γ α}
    {handler : α → Entity → Entity} {g g' : GameObj γ} {a : Unit} (hg : g.Consistent)
    (hctrl : ctrl.pid = some pid₀) (henter : ctrl.action ≠ some actionEnter)
    (hleave : ctrl.action ≠ some actionLeave) (hread : ∀ a g', read g = .ok (a, g') → g = g')
    (happlied : ∀ b, read g = .ok (b, g) → ∀ e, Applied ctrl e (handler b e))
    (hsame : ∀ b e, (handler b e).pid? = e.pid?) (h : handle pid₀ read handler g = .ok (a, g'))
    {id : ℕ} {e' : Entity} (he' : g'.objects.lookup id = some e') (hpid : e'.pid? = some pid) :
    Handled pid ctrl g e' id := by
  rcases handle_objects hg hread h id e' he' with ⟨e, he, hne, rfl⟩ | ⟨e, b, he, heq, hb, rfl⟩
  · refine handled_of_eq he hpid (isInput_eq_false (Or.inl fun hown => hne ?_))
    obtain rfl := Option.some.inj (hctrl.symm.trans hown)
    exact hpid
  · rw [hsame] at hpid
    obtain rfl := Option.some.inj (hpid.symm.trans heq)
    refine Or.inr ⟨e, he, hpid, ?_⟩
    rw [isInput_eq_true.mpr ⟨hctrl, henter, hleave⟩]
    exact happlied b hb e

/-- **What an entry does to the object of a player.** -/
theorem handled_act {ctrl : CtrlInfo} {g g' : GameObj γ} {a : Unit} (hg : g.Consistent)
    (h : act ctrl g = .ok (a, g')) {pid : Pid} {id : ℕ} {e' : Entity}
    (he' : g'.objects.lookup id = some e') (hpid : e'.pid? = some pid) :
    Handled pid ctrl g e' id := by
  obtain ⟨pid₀, g₁, hkey, h⟩ := bind_eq_ok.mp h
  obtain ⟨hctrl, rfl⟩ := key_ok hkey
  obtain ⟨action, g₁, hkey, h⟩ := bind_eq_ok.mp h
  obtain ⟨haction, rfl⟩ := key_ok hkey
  have hne : ∀ {c : ℤ}, action ≠ c → ctrl.action ≠ some c :=
    fun hc heq => hc (Option.some.inj (haction.symm.trans heq))
  split at h
  · -- `ENTER`: the object is new, or has another pid
    rename_i henter
    obtain ⟨b, g₂, hdrop, h⟩ := bind_eq_ok.mp h
    obtain ⟨args, g₃, hkey, h⟩ := bind_eq_ok.mp h
    obtain ⟨-, rfl⟩ := key_ok hkey
    obtain ⟨e, g₄, hinit, hstore⟩ := bind_eq_ok.mp h
    obtain ⟨name, color, pos, cr, cg, cb, x, z, rfl, rfl, rfl⟩ :=
      (initPlayer_ok_iff ..).mp ⟨_, hinit⟩
    obtain ⟨rfl, rfl⟩ := Prod.mk.inj (Except.ok.inj hinit)
    obtain rfl := (Prod.mk.inj (Except.ok.inj hstore)).2
    change (g₂.create _).objects.lookup id = some e' at he'
    rw [lookup_create] at he'
    split at he'
    · obtain rfl := Option.some.inj he'
      exact Or.inl ⟨rfl, rfl⟩
    · refine handled_of_eq (dropPlayer_objects hdrop id e' he') hpid (isInput_eq_false ?_)
      exact Or.inr (Or.inl (henter ▸ haction))
  · rename_i henter
    split at h
    · rename_i hleave
      refine handled_of_eq (dropPlayer_objects h id e' he') hpid (isInput_eq_false ?_)
      exact Or.inr (Or.inr (hleave ▸ haction))
    · rename_i hleave
      split at h
      · rename_i hattack
        refine handled_of_handle hg hctrl (hne henter) (hne hleave)
          (fun b g' hb => (attackArgs_ok.mp hb).2) (fun b hb e => ?_)
          (fun b e => (e.handleAttack_keeps b).2.2.1) h he' hpid
        exact .attack b ⟨hattack ▸ haction, (attackArgs_ok.mp hb).1⟩
      · rename_i hattack
        split at h
        · rename_i hmove
          refine handled_of_handle hg hctrl (hne henter) (hne hleave)
            (fun b g' hb => (moveArgs_ok.mp hb).2) (fun b hb e => ?_)
            (fun b e => (e.handleMove_keeps b.1 b.2).2.2.1) h he' hpid
          exact .move b.1 b.2 ⟨hmove ▸ haction, (moveArgs_ok.mp hb).1⟩
        · rename_i hmove
          obtain rfl := (Prod.mk.inj (Except.ok.inj h)).2
          refine Or.inr ⟨e', he', hpid, ?_⟩
          split
          · exact .nothing (hne hattack) (hne hmove)
          · rfl

end Act

end GameObj

open GameObj

/-! ## What the direction and the fire go back to -/

/-- An element with `P` is in the list, and none with `Q` comes after it. -/
def Since {α : Type} (P Q : α → Prop) (l : List α) : Prop :=
  ∃ pre a post, l = pre ++ a :: post ∧ P a ∧ ∀ b ∈ post, ¬ Q b

namespace Since

variable {α β : Type} {P Q : α → Prop} {l : List α} {a : α}

theorem last (h : P a) : Since P Q (l ++ [a]) :=
  ⟨l, a, [], rfl, h, fun _ hb => absurd hb List.not_mem_nil⟩

theorem snoc (h : Since P Q l) (ha : ¬ Q a) : Since P Q (l ++ [a]) := by
  obtain ⟨pre, b, post, rfl, hb, hpost⟩ := h
  refine ⟨pre, b, post ++ [a], by simp, hb, fun c hc => ?_⟩
  rcases List.mem_append.mp hc with hc | hc
  · exact hpost c hc
  · obtain rfl := List.mem_singleton.mp hc
    exact ha

/-- Elements in front do not matter. -/
theorem of_drop {n : ℕ} (h : Since P Q (l.drop n)) : Since P Q l := by
  obtain ⟨pre, b, post, hl, hb, hpost⟩ := h
  refine ⟨l.take n ++ pre, b, post, ?_, hb, hpost⟩
  rw [List.append_assoc, ← hl, List.take_append_drop]

/-- What is known of the images is known of the elements. -/
theorem of_filterMap {f : β → Option α} {l : List β} (h : Since P Q (l.filterMap f)) :
    Since (fun b => ∃ a, f b = some a ∧ P a) (fun b => ∃ a, f b = some a ∧ Q a) l := by
  obtain ⟨pre, a, post, hl, ha, hpost⟩ := h
  obtain ⟨l₁, l₂, rfl, -, hrest⟩ := List.filterMap_eq_append_iff.mp hl
  obtain ⟨l₃, b, l₄, rfl, -, hb, hl₄⟩ := List.filterMap_eq_cons_iff.mp hrest
  refine ⟨l₁ ++ l₃, b, l₄, by simp, ⟨a, hb, ha⟩, ?_⟩
  rintro c hc ⟨x, hx, hq⟩
  exact hpost x (hl₄ ▸ List.mem_filterMap.mpr ⟨c, hc, hx⟩) hq

end Since

/-- The direction goes back to an entry that set it and was not undone, and so does the fire. -/
structure Explained (l : List CtrlInfo) (e : Entity) : Prop where
  /-- `m_Dir` -/
  dir : ∀ iDir, e.dir = some iDir → Since (Moves iDir statusKeyDown) (Moves iDir statusKeyUp) l
  /-- `m_InAttack` -/
  attack : e.inAttack = true → Since (Attacks statusKeyDown) (Attacks statusKeyUp) l

theorem inAttack_handleMove (e : Entity) (iDir status : ℤ) :
    (e.handleMove iDir status).inAttack = e.inAttack := by
  unfold Entity.handleMove
  split_ifs
  all_goals rfl

theorem dir_handleAttack (e : Entity) (status : ℤ) : (e.handleAttack status).dir = e.dir := by
  unfold Entity.handleAttack
  split
  · split_ifs
    all_goals rfl
  · rfl

/-- What `handle_attack` does to the fire. -/
theorem inAttack_handleAttack {e : Entity} {status : ℤ}
    (h : (e.handleAttack status).inAttack = true) :
    status = statusKeyDown ∨ status ≠ statusKeyUp ∧ e.inAttack = true := by
  obtain ⟨x, z, width, height, color, speed, dir, blood, body⟩ := e
  cases body with
  | enemy | bullet => exact absurd h Bool.false_ne_true
  | player pid name inAttack n =>
      unfold Entity.handleAttack at h
      dsimp only at h
      split_ifs at h with hup hdown
      · exact absurd h Bool.false_ne_true
      · exact Or.inl hdown
      · exact Or.inr ⟨hup, h⟩

/-- What `handle_move` does to the direction. -/
theorem dir_handleMove {e : Entity} {iDir status d : ℤ}
    (h : (e.handleMove iDir status).dir = some d) :
    status = statusKeyDown ∧ d = iDir ∨ ¬ (status = statusKeyUp ∧ d = iDir) ∧ e.dir = some d := by
  unfold Entity.handleMove at h
  split_ifs at h with hup hdir hdown hnone
  · refine Or.inr ⟨fun heq => hdir ?_, h⟩
    rw [h, heq.2]
  · exact Or.inl ⟨hdown, (Option.some.inj h).symm⟩
  · exact Or.inr ⟨fun heq => hup heq.1, h⟩
  · exact Or.inr ⟨fun heq => hup heq.1, h⟩

namespace Explained

variable {l : List CtrlInfo} {e e' : Entity} {ctrl : CtrlInfo}

/-- A new player. -/
theorem of_none (hdir : e.dir = none) (hattack : e.inAttack = false) : Explained l e where
  dir := fun _ h => absurd (hdir.symm.trans h).symm (Option.some_ne_none _)
  attack := fun h => absurd (hattack.symm.trans h) Bool.false_ne_true

theorem congr (h : Explained l e) (hsame : SameInput e e') : Explained l e' where
  dir := fun iDir hdir => h.dir iDir (hsame.dir.symm.trans hdir)
  attack := fun hattack => h.attack (hsame.inAttack.symm.trans hattack)

/-- **One more entry of the player.** -/
theorem applied (h : Explained l e) (happlied : Applied ctrl e e') : Explained (l ++ [ctrl]) e' := by
  cases happlied with
  | attack status hctrl =>
      refine ⟨fun iDir hdir => ?_, fun hattack => ?_⟩
      · rw [dir_handleAttack] at hdir
        refine (h.dir iDir hdir).snoc fun hmove => ?_
        exact absurd (hctrl.1.symm.trans hmove.1) (by decide)
      · rcases inAttack_handleAttack hattack with rfl | ⟨hup, hbefore⟩
        · exact Since.last hctrl
        · refine (h.attack hbefore).snoc fun hattacks => hup ?_
          have hinfo := hctrl.2.symm.trans hattacks.2
          simpa using hinfo
  | move iDir₀ status hctrl =>
      refine ⟨fun iDir hdir => ?_, fun hattack => ?_⟩
      · rcases dir_handleMove hdir with ⟨rfl, rfl⟩ | ⟨hup, hbefore⟩
        · exact Since.last hctrl
        · refine (h.dir iDir hbefore).snoc fun hmoves => hup ?_
          have hinfo := hctrl.2.symm.trans hmoves.2
          simp only [Option.some.injEq, ActionMove.mk.injEq] at hinfo
          exact ⟨hinfo.2, hinfo.1.symm⟩
      · rw [inAttack_handleMove] at hattack
        refine (h.attack hattack).snoc fun hattacks => ?_
        exact absurd (hctrl.1.symm.trans hattacks.1) (by decide)
  | nothing hattack hmove =>
      exact ⟨fun iDir hdir => (h.dir iDir hdir).snoc fun hmoves => hmove hmoves.1,
        fun hfire => (h.attack hfire).snoc fun hattacks => hattack hattacks.1⟩

end Explained

/-! ## A run -/

/-- The player's object is explained by what the player did. -/
structure Unstuck (pid : Pid) (beats : List Beat) (g : GameObj γ) : Prop where
  /-- The game is consistent. -/
  consistent : g.Consistent
  /-- No object is dead. -/
  alive : g.DeadIn []
  /-- The object of the player. -/
  explained : ∀ id e, g.objects.lookup id = some e → e.pid? = some pid →
    Explained (inputs pid beats) e

theorem inputs_snoc_entry (pid : Pid) (beats : List Beat) (ctrl : CtrlInfo) :
    inputs pid (beats ++ [.entry ctrl])
      = inputs pid beats ++ if isInput pid ctrl then [ctrl] else [] := by
  simp only [inputs, List.filterMap_append, List.filter_append]
  congr 1
  split
  · rename_i hinput
    exact List.filter_cons_of_pos hinput
  · rename_i hinput
    exact List.filter_cons_of_neg hinput

/-- Other parts of a call are no inputs. -/
theorem inputs_snoc {pid : Pid} {beats : List Beat} {b : Beat} (h : b.ctrl = none) :
    inputs pid (beats ++ [b]) = inputs pid beats := by
  simp [inputs, h]

/-- What leaves the inputs alone. -/
theorem Unstuck.keeps {pid : Pid} {beats : List Beat} {g g' : GameObj γ} (h : Unstuck pid beats g)
    (hconsistent : g'.Consistent) (halive : g'.DeadIn []) (hkeeps : KeepsInput g g') {b : Beat}
    (hb : b.ctrl = none) : Unstuck pid (beats ++ [b]) g' := by
  refine ⟨hconsistent, halive, fun id e' he' hpid => ?_⟩
  obtain ⟨e, he, hsame⟩ := hkeeps id e' he' fun hnone => Option.some_ne_none _ (hpid.symm.trans hnone)
  rw [inputs_snoc hb]
  exact (h.explained id e he (hsame.pid ▸ hpid)).congr hsame

section Run

variable [PyRandom γ] [DictOrder ℕ]

/-- **Step lemma.** -/
theorem Unstuck.step {pid : Pid} {beats : List Beat} {g g' : GameObj γ} (h : Unstuck pid beats g)
    {b : Beat} {a : Unit} (hrun : b.run g = .ok (a, g')) : Unstuck pid (beats ++ [b]) g' := by
  cases b with
  | seed rndseed =>
      obtain rfl := (Prod.mk.inj (Except.ok.inj hrun)).2
      have hconsistent : Consistent
          ({ g with rndSeed := some rndseed, gen := PyRandom.seed rndseed } : GameObj γ) :=
        h.consistent.congr rfl rfl (fun t => by cases t <;> rfl) rfl rfl rfl
      exact h.keeps hconsistent h.alive (keepsInput_of_objects rfl) rfl
  | began frameNumber =>
      obtain rfl := (Prod.mk.inj (Except.ok.inj hrun)).2
      have hconsistent : Consistent ({ g with gsFrameNo := frameNumber } : GameObj γ) :=
        h.consistent.congr rfl rfl (fun t => by cases t <;> rfl) rfl rfl rfl
      exact h.keeps hconsistent h.alive (keepsInput_of_objects rfl) rfl
  | ctrlOnce =>
      have hkeeps := keepsInput_updateCtrlOnce g a g' hrun
      have htraces := Observing.traces_updateCtrlOnce (γ := γ) (N := fun _ _ => True)
      obtain ⟨-, hconsistent, halive⟩ := htraces g h.consistent a g'
        (by rw [Observing.run_updateCtrlOnce]; exact hrun)
      exact h.keeps hconsistent halive hkeeps rfl
  | finish =>
      have hkeeps := keepsInput_finish g a g' hrun
      have htraces := Observing.traces_finish (γ := γ) (N := fun _ _ => True)
      obtain ⟨-, hconsistent, halive⟩ := htraces g ⟨h.consistent, h.alive⟩ a g'
        (by rw [Observing.run_finish]; exact hrun)
      exact h.keeps hconsistent halive hkeeps rfl
  | entry ctrl =>
      -- An entry of the player sets the direction or the attack that it stands for; one of somebody
      -- else leaves the object as it was.
      have htraces := Observing.traces_act (γ := γ) (placed_anywhere ctrl)
      obtain ⟨-, hconsistent, halive, -⟩ := htraces g ⟨h.consistent, h.alive⟩ a g'
        (by rw [Observing.run_act]; exact hrun)
      refine ⟨hconsistent, halive, fun id e' he' hpid => ?_⟩
      rcases handled_act h.consistent hrun he' hpid with ⟨hdir, hattack⟩ | ⟨e, he, hpid', heff⟩
      · exact .of_none hdir hattack
      · have hbefore := h.explained id e he hpid'
        rw [inputs_snoc_entry]
        split at heff
        · rename_i hinput
          rw [if_pos hinput]
          exact hbefore.applied heff
        · rename_i hinput
          rw [if_neg hinput, List.append_nil, heff]
          exact hbefore

/-- Whatever a client has done so far. -/
theorem unstuck_forM {pid : Pid} {beats beats' : List Beat} {g g' : GameObj γ}
    (h : Unstuck pid beats g) {a : Unit} (hrun : beats'.forM Beat.run g = .ok (a, g')) :
    Unstuck pid (beats ++ beats') g' := by
  induction beats' generalizing beats g with
  | nil =>
      obtain rfl := (Prod.mk.inj (Except.ok.inj hrun)).2
      simpa using h
  | cons b beats' ih =>
      obtain ⟨a₁, g₁, hfirst, hrest⟩ := bind_eq_ok.mp hrun
      have hnext := ih (h.step hfirst) hrest
      rwa [List.append_assoc] at hnext

end Run

/-! ## No stuck input -/

/-- A key whose last event was a `KEYDOWN` is held. -/
theorem held_of_since {events : List KeyEvent} {key : Key}
    (h : Since (· = ⟨key, true⟩) (· = ⟨key, false⟩) events) : held events key = true := by
  obtain ⟨pre, e, post, rfl, rfl, hpost⟩ := h
  have hstays : ∀ (l : List KeyEvent) (_ : ∀ e ∈ l, ¬ e = ⟨key, false⟩),
      l.foldl (fun isDown e => if e.key = key then e.down else isDown) true = true := by
    intro l hl
    induction l with
    | nil => rfl
    | cons e l ih =>
        obtain ⟨hfirst, hrest⟩ := List.forall_mem_cons.mp hl
        rw [List.foldl_cons]
        split
        · rename_i hkey
          obtain ⟨key', isDown⟩ := e
          obtain rfl : key' = key := hkey
          cases isDown with
          | false => exact absurd rfl hfirst
          | true => exact ih hrest
        · exact ih hrest
  rw [held, List.foldl_append, List.foldl_cons, if_pos rfl]
  exact hstays post hpost

/-- The status of a key event. -/
def KeyEvent.status (e : KeyEvent) : ℤ := if e.down then statusKeyDown else statusKeyUp

theorem KeyEvent.entry_eq (pid : Pid) (e : KeyEvent) : e.entry pid = touchKey e.status pid e.key := by
  obtain ⟨key, isDown⟩ := e
  cases isDown with
  | false => rfl
  | true => rfl

theorem KeyEvent.status_eq_down {e : KeyEvent} : e.status = statusKeyDown ↔ e.down = true := by
  obtain ⟨key, isDown⟩ := e
  cases isDown with
  | false => exact iff_of_false (show ¬ statusKeyUp = statusKeyDown by decide) Bool.false_ne_true
  | true => exact iff_of_true rfl rfl

/-- The key events whose entries are moves. -/
theorem moves_entry {pid : Pid} {e : KeyEvent} {iDir status : ℤ} :
    (∃ ctrl, e.entry pid = some ctrl ∧ Moves iDir status ctrl) ↔
      dirMap e.key = some iDir ∧ e.status = status := by
  rw [e.entry_eq, touchKey]
  cases hdir : dirMap e.key with
  | some iDir₀ => simp [Moves, moveEntry]
  | none =>
      refine iff_of_false ?_ fun h => Option.some_ne_none _ h.1.symm
      rintro ⟨ctrl, hctrl, hmoves⟩
      dsimp only at hctrl
      split at hctrl
      · obtain rfl := Option.some.inj hctrl
        exact absurd (Option.some.inj hmoves.1) (by decide)
      · cases hctrl

/-- The key events whose entries are attacks. -/
theorem attacks_entry {pid : Pid} {e : KeyEvent} {status : ℤ} :
    (∃ ctrl, e.entry pid = some ctrl ∧ Attacks status ctrl) ↔
      (dirMap e.key = none ∧ e.key.isAttack = true) ∧ e.status = status := by
  rw [e.entry_eq, touchKey]
  cases hdir : dirMap e.key with
  | some iDir₀ =>
      refine iff_of_false ?_ fun h => Option.some_ne_none _ h.1.1
      rintro ⟨ctrl, hctrl, hattacks⟩
      obtain rfl := Option.some.inj hctrl
      exact absurd (Option.some.inj hattacks.1) (by decide)
  | none =>
      cases hkey : e.key.isAttack with
      | true => simp [Attacks, attackEntry]
      | false => simp

/-- A key event of one of some keys, with none of their releases after it, is one of a key that is
held. -/
theorem exists_held {events : List KeyEvent} {keys : Key → Prop}
    (h : Since (fun e : KeyEvent => keys e.key ∧ e.status = statusKeyDown)
      (fun e => keys e.key ∧ e.status = statusKeyUp) events) :
    ∃ key, keys key ∧ held events key = true := by
  obtain ⟨pre, ⟨key, isDown⟩, post, rfl, ⟨hkey, hstatus⟩, hpost⟩ := h
  obtain rfl := KeyEvent.status_eq_down.mp hstatus
  refine ⟨key, hkey, held_of_since ⟨pre, _, post, rfl, rfl, fun e he heq => hpost e he ?_⟩⟩
  rw [heq]
  exact ⟨hkey, rfl⟩

/-- **No stuck input.** A client has done `beats`; what the player did in them are the entries of its
key events, without the first `n`. Then the player's object has no direction, or that of a key that is
held, and when no key is held it neither moves nor fires. The other entries are arbitrary: in
particular the player may leave and enter anywhere. The downs and ups of a key need not alternate.
The moments of a run of a client are such a list (`Fsm.beats_run`), and so is every first part of it:
the statement holds at every moment, with the key events whose entries were applied by then. -/
theorem no_stuck_input [PyRandom γ] [DictOrder ℕ] {mainRPid pid : Pid} {gen : γ} {beats : List Beat}
    {g : GameObj γ} {events : List KeyEvent} {n : ℕ}
    (hrun : beats.forM Beat.run (GameObj.init mainRPid gen) = .ok ((), g))
    (hinputs : inputs pid beats = (events.filterMap (KeyEvent.entry pid)).drop n) :
    ∀ id e, g.objects.lookup id = some e → e.pid? = some pid →
      (e.dir = none ∨ ∃ key, held events key = true ∧ e.dir = dirMap key) ∧
        ((∀ key, held events key = false) → e.dir = none ∧ e.inAttack = false) := by
  intro id e he hpid
  have hinit : Unstuck pid [] (GameObj.init mainRPid gen) := by
    refine ⟨consistent_init mainRPid gen, fun id e he => ?_, fun id e he => ?_⟩
    · cases he
    · cases he
  -- What the object does is explained by the entries since the last one that ended it, and these
  -- are a final part of the key events.
  have hexplained := (unstuck_forM hinit hrun).explained id e he hpid
  rw [List.nil_append, hinputs] at hexplained
  have hdir : ∀ iDir, e.dir = some iDir → ∃ key, dirMap key = some iDir ∧ held events key = true := by
    intro iDir hiDir
    have hsince := (hexplained.dir iDir hiDir).of_drop.of_filterMap
    simp only [moves_entry] at hsince
    exact @exists_held events (fun key => dirMap key = some iDir) hsince
  have hattack : e.inAttack = true → ∃ key, held events key = true := by
    intro hfire
    have hsince := (hexplained.attack hfire).of_drop.of_filterMap
    simp only [attacks_entry] at hsince
    obtain ⟨key, -, hheld⟩ :=
      @exists_held events (fun key => dirMap key = none ∧ key.isAttack = true) hsince
    exact ⟨key, hheld⟩
  have hsome : e.dir = none ∨ ∃ key, held events key = true ∧ e.dir = dirMap key := by
    cases hd : e.dir with
    | none => exact Or.inl rfl
    | some iDir =>
        obtain ⟨key, hkey, hheld⟩ := hdir iDir hd
        exact Or.inr ⟨key, hheld, hkey.symm⟩
  refine ⟨hsome, fun hup => ⟨?_, ?_⟩⟩
  · refine hsome.resolve_right ?_
    rintro ⟨key, hheld, -⟩
    exact absurd ((hup key).symm.trans hheld) Bool.false_ne_true
  · rw [← Bool.not_eq_true]
    intro hfire
    obtain ⟨key, hheld⟩ := hattack hfire
    exact absurd ((hup key).symm.trans hheld) Bool.false_ne_true

section Recorded

attribute [local instance] DictOrder.byInsertion

/-- Player 1 has held both keys for up, releases one of them and still moves up, then releases the
other. The first event was dropped. -/
def twoKeysUp : List KeyEvent :=
  [⟨.w, true⟩, ⟨.up, true⟩, ⟨.space, true⟩, ⟨.w, false⟩, ⟨.up, false⟩, ⟨.space, false⟩]

/-- What the client does: player 1 enters, and the entries arrive. -/
def twoKeysUpBeats : List Beat :=
  .seed 43 :: ((Fsm.twoFrames.flatMap frameBeats) ++
    ((twoKeysUp.filterMap (KeyEvent.entry 1)).drop 1).flatMap fun ctrl => [.entry ctrl, .ctrlOnce])

/-- Player 1 stops. -/
theorem no_stuck_input_twoKeysUp : ∃ g : GameObj MersenneTwister,
    twoKeysUpBeats.forM Beat.run (GameObj.init 1 (.seed 1)) = .ok ((), g) ∧
      (∃ id, (g.objects.lookup id).bind Entity.pid? = some 1) ∧
      ∀ id e, g.objects.lookup id = some e → e.pid? = some 1 → e.dir = none ∧ e.inAttack = false := by
  have hends : endsIn (twoKeysUpBeats.forM Beat.run) (GameObj.init 1 (MersenneTwister.seed 1))
      (fun g => (g.objects.lookup 2).bind Entity.pid? = some 1) = true := by
    decide +kernel
  obtain ⟨⟨⟩, g, hrun, hplayer⟩ := endsIn_eq_true hends
  have hinputs : inputs 1 twoKeysUpBeats = (twoKeysUp.filterMap (KeyEvent.entry 1)).drop 1 := by
    decide +kernel
  refine ⟨g, hrun, ⟨2, of_decide_eq_true hplayer⟩, fun id e he hpid => ?_⟩
  refine (no_stuck_input hrun hinputs id e he hpid).2 fun key => ?_
  cases key <;> rfl

end Recorded

end FrameSync.Client
