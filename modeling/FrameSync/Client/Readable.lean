import FrameSync.Client.Index

/-! # When a frame crashes a client

`update_frame` reads the keys of an entry without a test whether they are there. `Readable` collects
what it reads of an entry in a given state of the game; a frame is applied without raising exactly
when each of its entries is readable in the state in which the loop reaches it. -/

namespace FrameSync.Client.GameObj

open Program

variable {γ : Type}

/-! ## Reading the keys of an entry -/

theorem key_ok {α : Type} {v : Option α} {g g' : GameObj γ} {a : α}
    (h : key v g = .ok (a, g')) : v = some a ∧ g = g' := by
  cases v with
  | none => cases h
  | some a =>
      obtain ⟨rfl, rfl⟩ := Prod.mk.inj (Except.ok.inj h)
      exact ⟨rfl, rfl⟩

/-- The keys that `CPlayerObj.__init__` reads are there. -/
def FullEnter (args : ActionEnter) : Prop :=
  ∃ name color pos r g b x z, args = ⟨some name, some color, some pos⟩ ∧
    color = ⟨some r, some g, some b⟩ ∧ pos = ⟨some x, some z⟩

theorem initPlayer_ok_iff (pid : Pid) (args : ActionEnter) (g : GameObj γ) :
    (∃ r, initPlayer pid args g = .ok r) ↔ FullEnter args := by
  constructor
  · rintro ⟨res, h⟩
    obtain ⟨name, g₁, hname, h⟩ := bind_eq_ok.mp h
    obtain ⟨color, g₂, hcolor, h⟩ := bind_eq_ok.mp h
    obtain ⟨r, g₃, hr, h⟩ := bind_eq_ok.mp h
    obtain ⟨gr, g₄, hgr, h⟩ := bind_eq_ok.mp h
    obtain ⟨b, g₅, hb, h⟩ := bind_eq_ok.mp h
    obtain ⟨pos, g₆, hpos, h⟩ := bind_eq_ok.mp h
    obtain ⟨x, g₇, hx, h⟩ := bind_eq_ok.mp h
    obtain ⟨z, g₈, hz, -⟩ := bind_eq_ok.mp h
    obtain ⟨aname, acolor, apos⟩ := args
    obtain ⟨cr, cg, cb⟩ := color
    obtain ⟨px, pz⟩ := pos
    obtain rfl := (key_ok hname).1
    obtain rfl := (key_ok hcolor).1
    obtain rfl := (key_ok hr).1
    obtain rfl := (key_ok hgr).1
    obtain rfl := (key_ok hb).1
    obtain rfl := (key_ok hpos).1
    obtain rfl := (key_ok hx).1
    obtain rfl := (key_ok hz).1
    exact ⟨_, _, _, _, _, _, _, _, rfl, rfl, rfl⟩
  · rintro ⟨name, color, pos, r, g', b, x, z, rfl, rfl, rfl⟩
    exact ⟨_, rfl⟩

/-- The constructor only reads. -/
theorem initPlayer_state {pid : Pid} {args : ActionEnter} {g g' : GameObj γ} {e : Entity}
    (h : initPlayer pid args g = .ok (e, g')) : g = g' := by
  obtain ⟨name, color, pos, cr, cg, cb, x, z, rfl, rfl, rfl⟩ := (initPlayer_ok_iff ..).mp ⟨_, h⟩
  exact (Prod.mk.inj (Except.ok.inj h)).2

section Entry

variable [PyRandom γ] [DictOrder ℕ]

/-- What `update_frame` reads of an entry that it reaches in the state `g`: `pid` and `action`
always, the whole `enter_info` for an `ACTION_ENTER`, and for an `ACTION_ATTACK` or `ACTION_MOVE` of
a player that is in the game the keys of `attack_info` or `move_info`. -/
structure Readable (g : GameObj γ) (ctrl : CtrlInfo) : Prop where
  /-- `ctrl["pid"]` -/
  pid : ctrl.pid.isSome
  /-- `ctrl["action"]` -/
  action : ctrl.action.isSome
  /-- `ctrl["enter_info"]` -/
  enter : ctrl.action = some actionEnter → ∃ args, ctrl.enterInfo = some args ∧ FullEnter args
  /-- `ctrl["attack_info"]["status"]` -/
  attack : ctrl.action = some actionAttack → (ctrl.pid.bind g.getPlayer).isSome →
    ∃ status, ctrl.attackInfo = some ⟨some status⟩
  /-- `ctrl["move_info"]["dir"]`, `ctrl["move_info"]["status"]` -/
  move : ctrl.action = some actionMove → (ctrl.pid.bind g.getPlayer).isSome →
    ∃ dir status, ctrl.moveInfo = some ⟨some dir, some status⟩

omit [PyRandom γ] in
/-- The player of a pid is a stored object of that type. -/
theorem getPlayer_hasType {g : GameObj γ} (h : g.Indexed) {pid : Pid} {id : ℕ}
    (hid : g.getPlayer pid = some id) : g.HasType id .player :=
  (h.dict id .player).mp (PyDict.mem_items.mp (List.mem_of_find?_eq_some hid))

omit [PyRandom γ] in
theorem ensures_dropPlayer (pid : Pid) :
    Ensures (Running []) (dropPlayer pid : Method γ Unit) fun _ g => g.Running [] := by
  refine Ensures.get_bind fun g hg => ?_
  split
  · rename_i id hid
    obtain ⟨e, he, -⟩ := getPlayer_hasType hg.indexed hid
    have halive : g.Running [id] := ⟨hg.indexed, hg.seeded, fun id' hid' => by
      obtain rfl := List.mem_singleton.mp hid'
      exact AList.lookup_isSome.mp (by rw [he]; rfl)⟩
    exact (ensures_destroyEntity List.not_mem_nil).mono (fun _ h => h ▸ halive) fun _ _ h => h
  · exact Ensures.pure fun _ h => h ▸ hg

omit [PyRandom γ] in
/-- A handler call raises only if its arguments cannot be read, and they are only read if the player
is there. -/
theorem handle_ok_iff {α : Type} {g : GameObj γ} (hg : g.Running []) (pid : Pid)
    (read : Method γ α) (handler : α → Entity → Entity)
    (hread : ∀ a g', read g = .ok (a, g') → g = g') (htype : ∀ a e, (handler a e).type = e.type) :
    ((∃ r, handle pid read handler g = .ok r) ↔
      ((g.getPlayer pid).isSome → ∃ a, read g = .ok (a, g))) ∧
    ∀ r, handle pid read handler g = .ok r → r.2.Running [] := by
  rw [handle, get_bind_apply]
  cases hid : g.getPlayer pid with
  | none =>
      refine ⟨⟨fun _ h => by simp at h, fun _ => ⟨_, rfl⟩⟩, fun r hr => ?_⟩
      obtain rfl := Except.ok.inj hr
      exact hg
  | some id =>
      obtain ⟨e, he, ht⟩ := getPlayer_hasType hg.indexed hid
      have hobj : (object id : Method γ Entity) g = .ok (e, g) := by
        rw [object, get_bind_apply, he]
        rfl
      simp only [bind_of_ok hobj, Option.isSome_some, true_imp_iff]
      -- Writing the player back always goes through: the handler keeps the type.
      have hput : ∀ a, ∃ g', (putObject id (handler a e) : Method γ Unit) g = .ok ((), g') ∧
          g'.Running [] := fun a => by
        obtain ⟨_, g', hrun, hg'⟩ := ensures_putObject (e := handler a e) id
          .player g ⟨hg, ⟨e, he, (htype a e).symm⟩, ⟨e, he, ht⟩⟩
        exact ⟨g', hrun, hg'.1⟩
      refine ⟨⟨?_, ?_⟩, ?_⟩
      · rintro ⟨r, hr⟩
        obtain ⟨a, g', ha, -⟩ := bind_eq_ok.mp hr
        obtain rfl := hread _ _ ha
        exact ⟨a, ha⟩
      · rintro ⟨a, ha⟩
        obtain ⟨g', hrun, -⟩ := hput a
        exact ⟨_, bind_eq_ok.mpr ⟨a, g, ha, hrun⟩⟩
      · intro r hr
        obtain ⟨a, g', ha, hr⟩ := bind_eq_ok.mp hr
        obtain rfl := hread _ _ ha
        obtain ⟨g', hrun, hg'⟩ := hput a
        rw [hrun] at hr
        obtain rfl := Except.ok.inj hr
        exact hg'

omit [PyRandom γ] [DictOrder ℕ] in
theorem attackArgs_ok {ctrl : CtrlInfo} {g g' : GameObj γ} {status : ℤ} :
    attackArgs ctrl g = .ok (status, g') ↔ ctrl.attackInfo = some ⟨some status⟩ ∧ g = g' := by
  constructor
  · intro h
    obtain ⟨⟨s⟩, g₁, hinfo, hstatus⟩ := bind_eq_ok.mp h
    obtain ⟨hattack, rfl⟩ := key_ok hinfo
    obtain ⟨rfl, hg⟩ := key_ok hstatus
    exact ⟨hattack, hg⟩
  · rintro ⟨h, rfl⟩
    exact bind_eq_ok.mpr ⟨_, g, by rw [h]; rfl, rfl⟩

omit [PyRandom γ] [DictOrder ℕ] in
theorem moveArgs_ok {ctrl : CtrlInfo} {g g' : GameObj γ} {args : ℤ × ℤ} :
    moveArgs ctrl g = .ok (args, g') ↔ ctrl.moveInfo = some ⟨some args.1, some args.2⟩ ∧ g = g' := by
  constructor
  · intro h
    obtain ⟨⟨d, s⟩, g₁, hinfo, hrest⟩ := bind_eq_ok.mp h
    obtain ⟨hmove, rfl⟩ := key_ok hinfo
    obtain ⟨dir, g₂, hdir, hrest'⟩ := bind_eq_ok.mp hrest
    obtain ⟨rfl, rfl⟩ := key_ok hdir
    obtain ⟨status, g₃, hstatus, hpure⟩ := bind_eq_ok.mp hrest'
    obtain ⟨rfl, rfl⟩ := key_ok hstatus
    obtain ⟨rfl, rfl⟩ := Prod.mk.inj (Except.ok.inj hpure)
    exact ⟨hmove, rfl⟩
  · rintro ⟨h, rfl⟩
    exact bind_eq_ok.mpr ⟨_, g, by rw [h]; rfl, rfl⟩

omit [PyRandom γ] in
/-- An `ACTION_ENTER` raises only if its `enter_info` lacks a key. -/
theorem enter_ok_iff {g : GameObj γ} (hg : g.Running []) (pid : Pid) (ctrl : CtrlInfo) :
    ((∃ r, enter pid ctrl g = .ok r) ↔ ∃ args, ctrl.enterInfo = some args ∧ FullEnter args) ∧
    ∀ r, enter pid ctrl g = .ok r → r.2.Running [] := by
  obtain ⟨⟨⟩, g₁, hdrop, hg₁⟩ := ensures_dropPlayer pid g hg
  rw [enter, bind_of_ok hdrop]
  have hcreate : ∀ args, FullEnter args → ∃ g', createEntity (initPlayer pid args) g₁ = .ok ((), g') ∧
      g'.Running [] := fun args hargs => by
    obtain ⟨⟨e, g₂⟩, hinit⟩ := (initPlayer_ok_iff pid args g₁).mpr hargs
    obtain rfl := initPlayer_state hinit
    exact ⟨_, bind_of_ok hinit, hg₁.store e⟩
  refine ⟨⟨?_, ?_⟩, ?_⟩
  · rintro ⟨r, hr⟩
    obtain ⟨args, g₂, hargs, hr⟩ := bind_eq_ok.mp hr
    obtain ⟨e, g₃, hinit, -⟩ := bind_eq_ok.mp hr
    exact ⟨args, (key_ok hargs).1, (initPlayer_ok_iff ..).mp ⟨_, hinit⟩⟩
  · rintro ⟨args, hargs, hfull⟩
    obtain ⟨g', hrun, -⟩ := hcreate args hfull
    exact ⟨_, bind_eq_ok.mpr ⟨args, g₁, by rw [hargs]; rfl, hrun⟩⟩
  · intro r hr
    obtain ⟨args, g₂, hargs, hr⟩ := bind_eq_ok.mp hr
    obtain ⟨-, rfl⟩ := key_ok hargs
    obtain ⟨e, g₃, hinit, -⟩ := bind_eq_ok.mp hr
    obtain ⟨g', hrun, hg'⟩ := hcreate args ((initPlayer_ok_iff ..).mp ⟨_, hinit⟩)
    rw [hrun] at hr
    obtain rfl := Except.ok.inj hr
    exact hg'

omit [PyRandom γ] in
/-- The branches on the action, once pid and action are read. -/
theorem act_eq {pid : Pid} {action : ℤ} {enterInfo : Option ActionEnter}
    {attackInfo : Option ActionAttack} {moveInfo : Option ActionMove} :
    (act ⟨some pid, some action, enterInfo, attackInfo, moveInfo⟩ : Method γ Unit) =
      let ctrl : CtrlInfo := ⟨some pid, some action, enterInfo, attackInfo, moveInfo⟩
      if action = actionEnter then enter pid ctrl
      else if action = actionLeave then dropPlayer pid
      else if action = actionAttack then
        handle pid (attackArgs ctrl) fun status obj => obj.handleAttack status
      else if action = actionMove then
        handle pid (moveArgs ctrl) fun args obj => obj.handleMove args.1 args.2
      else pure () := rfl

omit [PyRandom γ] in
/-- **An entry raises exactly when it is not readable**, and otherwise leaves a game that runs. -/
theorem act_ok_iff {g : GameObj γ} (hg : g.Running []) (ctrl : CtrlInfo) :
    ((∃ r, act ctrl g = .ok r) ↔ g.Readable ctrl) ∧ ∀ r, act ctrl g = .ok r → r.2.Running [] := by
  obtain ⟨_ | pid, action, enterInfo, attackInfo, moveInfo⟩ := ctrl
  · refine ⟨⟨?_, fun h => absurd h.pid (by simp)⟩, fun _ h => nomatch h⟩
    rintro ⟨_, h⟩
    cases h
  obtain _ | action := action
  · refine ⟨⟨?_, fun h => absurd h.action (by simp)⟩, fun _ h => nomatch h⟩
    rintro ⟨_, h⟩
    cases h
  rw [act_eq]
  by_cases henter : action = actionEnter
  · subst henter
    obtain ⟨hok, hrun⟩ := enter_ok_iff hg pid
      ⟨some pid, some actionEnter, enterInfo, attackInfo, moveInfo⟩
    refine ⟨hok.trans ⟨fun h => ⟨rfl, rfl, fun _ => h, fun h => ?_, fun h => ?_⟩,
      fun h => h.enter rfl⟩, hrun⟩
    · cases h
    · cases h
  simp only [if_neg henter]
  by_cases hleave : action = actionLeave
  · subst hleave
    simp only [if_true]
    obtain ⟨a, g', hdrop, hg'⟩ := ensures_dropPlayer pid g hg
    refine ⟨⟨fun _ => ⟨rfl, rfl, fun h => ?_, fun h => ?_, fun h => ?_⟩, fun _ => ⟨_, hdrop⟩⟩,
      fun r hr => ?_⟩
    · cases h
    · cases h
    · cases h
    · exact (ensures_dropPlayer pid).post hg hr
  simp only [if_neg hleave]
  by_cases hattack : action = actionAttack
  · subst hattack
    simp only [if_true]
    obtain ⟨hok, hrun⟩ := handle_ok_iff hg pid
      (attackArgs ⟨some pid, some actionAttack, enterInfo, attackInfo, moveInfo⟩)
      (fun status obj => obj.handleAttack status)
      (fun a g' h => (attackArgs_ok.mp h).2) fun a e => e.type_handleAttack a
    refine ⟨hok.trans ⟨fun h => ⟨rfl, rfl, fun h => ?_, fun _ hin => ?_, fun h => ?_⟩, fun h hin => ?_⟩,
      hrun⟩
    · cases h
    · obtain ⟨status, hstatus⟩ := h hin
      exact ⟨status, (attackArgs_ok.mp hstatus).1⟩
    · cases h
    · obtain ⟨status, hstatus⟩ := h.attack rfl hin
      exact ⟨status, attackArgs_ok.mpr ⟨hstatus, rfl⟩⟩
  simp only [if_neg hattack]
  by_cases hmove : action = actionMove
  · subst hmove
    simp only [if_true]
    obtain ⟨hok, hrun⟩ := handle_ok_iff hg pid
      (moveArgs ⟨some pid, some actionMove, enterInfo, attackInfo, moveInfo⟩)
      (fun args obj => obj.handleMove args.1 args.2)
      (fun a g' h => (moveArgs_ok.mp h).2) fun a e => e.type_handleMove a.1 a.2
    refine ⟨hok.trans ⟨fun h => ⟨rfl, rfl, fun h => ?_, fun h => ?_, fun _ hin => ?_⟩, fun h hin => ?_⟩,
      hrun⟩
    · cases h
    · cases h
    · obtain ⟨args, hargs⟩ := h hin
      exact ⟨args.1, args.2, (moveArgs_ok.mp hargs).1⟩
    · obtain ⟨dir, status, hargs⟩ := h.move rfl hin
      exact ⟨(dir, status), moveArgs_ok.mpr ⟨hargs, rfl⟩⟩
  -- an action the client does not know
  simp only [if_neg hmove]
  refine ⟨⟨fun _ => ⟨rfl, rfl, fun h => ?_, fun h => ?_, fun h => ?_⟩, fun _ => ⟨_, rfl⟩⟩,
    fun r hr => ?_⟩
  · exact absurd (Option.some.inj h) henter
  · exact absurd (Option.some.inj h) hattack
  · exact absurd (Option.some.inj h) hmove
  · obtain rfl := Except.ok.inj hr
    exact hg

/-! ## A frame -/

theorem updateEntry_ok_iff {g : GameObj γ} (hg : g.Running []) {ctrl : CtrlInfo} :
    ((∃ r, updateEntry ctrl g = .ok r) ↔ g.Readable ctrl) ∧
      ∀ r, updateEntry ctrl g = .ok r → r.2.Running [] := by
  obtain ⟨hok, hrun⟩ := act_ok_iff hg ctrl
  refine ⟨⟨?_, fun h => ?_⟩, fun r hr => ?_⟩
  · rintro ⟨r, hr⟩
    obtain ⟨a, g', hact, -⟩ := bind_eq_ok.mp hr
    exact hok.mp ⟨_, hact⟩
  · obtain ⟨⟨a, g'⟩, hact⟩ := hok.mpr h
    obtain ⟨b, g'', honce, -⟩ := ensures_updateCtrlOnce g' (hrun _ hact)
    exact ⟨_, bind_eq_ok.mpr ⟨a, g', hact, honce⟩⟩
  · obtain ⟨a, g', hact, honce⟩ := bind_eq_ok.mp hr
    exact ensures_updateCtrlOnce.post (hrun _ hact) honce

/-- The loop over the entries leaves a game that runs. -/
theorem running_forM_updateEntry {g g' : GameObj γ} (hg : g.Running []) (ctrls : List CtrlInfo)
    (h : ctrls.forM updateEntry g = .ok ((), g')) : g'.Running [] := by
  induction ctrls generalizing g with
  | nil =>
      obtain rfl := (Prod.mk.inj (Except.ok.inj h)).2
      exact hg
  | cons ctrl ctrls ih =>
      obtain ⟨a, g₁, hone, hrest⟩ := bind_eq_ok.mp h
      exact ih ((updateEntry_ok_iff hg).2 _ hone) hrest

/-- A frame begins with one `update_ctrl_once`. -/
theorem updateFrame_start {g : GameObj γ} (hg : g.Running []) (frameNumber : ℕ) :
    ∃ g₁, g₁.Running [] ∧ ∀ ctrlData timestamp,
      updateFrame ⟨frameNumber, ctrlData, timestamp⟩ g = ctrlData.forM updateEntry g₁ := by
  have hno : ({ g with gsFrameNo := frameNumber } : GameObj γ).Running [] :=
    hg.congr rfl rfl (fun t => by cases t <;> rfl) le_rfl rfl
  obtain ⟨a, g₁, honce, hg₁⟩ := ensures_updateCtrlOnce _ hno
  refine ⟨g₁, hg₁, fun ctrlData timestamp => ?_⟩
  rw [updateFrame, modify_bind_apply, bind_of_ok honce]

/-- **When a frame is applied without raising**: each of its entries is readable in the state that
the frame cut off before the entry leaves. -/
theorem updateFrame_ok_iff {g : GameObj γ} (hg : g.Running []) (msg : FrameInfo) :
    (∃ r, updateFrame msg g = .ok r) ↔ ∀ pre ctrl post, msg.ctrlData = pre ++ ctrl :: post →
      ∀ g', updateFrame { msg with ctrlData := pre } g = .ok ((), g') → g'.Readable ctrl := by
  obtain ⟨frameNumber, ctrlData, timestamp⟩ := msg
  obtain ⟨g₁, hg₁, hstart⟩ := updateFrame_start hg frameNumber
  simp only [hstart]
  rw [forM_ok_iff]
  constructor
  · intro h pre ctrl post hmsg g' hpre
    exact (updateEntry_ok_iff (running_forM_updateEntry hg₁ pre hpre)).1.mp
      (h pre ctrl post hmsg g' hpre)
  · intro h pre ctrl post hmsg g' hpre
    exact (updateEntry_ok_iff (running_forM_updateEntry hg₁ pre hpre)).1.mpr
      (h pre ctrl post hmsg g' hpre)

/-- A frame that is applied leaves a game that runs. -/
theorem running_updateFrame {g g' : GameObj γ} (hg : g.Running []) {msg : FrameInfo}
    (h : updateFrame msg g = .ok ((), g')) : g'.Running [] := by
  obtain ⟨g₁, hg₁, hstart⟩ := updateFrame_start hg msg.frameNumber
  exact running_forM_updateEntry hg₁ msg.ctrlData ((hstart msg.ctrlData msg.timestamp).symm.trans h)

end Entry

end FrameSync.Client.GameObj
