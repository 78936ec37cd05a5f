import FrameSync.Server.Ghosts

/-! # Delivery of inputs

What the calls about one pid push into a game: stay by stay, the ENTER of the session, its inputs in the
order in which the client sent them, each once, and its LEAVE (`inputs_delivered`). -/

namespace FrameSync

open Behaviour

/-! ## Words come during a stay -/

/-- Words come while the pid has a place. -/
def Orderly (g : GameId) (pid : Pid) (ms : List SceneMsg) : Prop :=
  ∀ l m l', ms = l ++ m :: l' → m.isEnter = false → (holder g pid l).isSome = true

section Order

variable [Wire] [ServerConfig] {tr : List (World × WorldMove)} {w : World}

/-- All that a session has said but the last word are inputs. -/
theorem spoken_dropLast (h : ServerRun tr w) (pid : Pid) (obj : ℕ) :
    ∃ cs : List (Option CtrlInfo), (spoken pid obj tr).dropLast = cs.map .input := by
  rcases spoken_cases h pid obj with hspoken | ⟨hspoken, -, -⟩
  · exact ⟨(heard pid obj tr).dropLast, by rw [hspoken, List.map_dropLast]⟩
  · exact ⟨heard pid obj tr, by rw [hspoken, List.dropLast_concat]⟩

/-- **A word is one of the session that has the place.** -/
theorem word_of_stays (h : ServerRun tr w) {g : GameId} {pid : Pid} {xs : List Seat}
    (hxs : ∀ x ∈ xs, x.gameId = g ∧ x.req.pid = pid) {l l' : List SceneMsg} {m : SceneMsg}
    (hsplit : xs.flatMap (stay tr) = l ++ m :: l') (hm : m.isEnter = false) :
    ∃ x ∈ xs, holder g pid l = some x.req.mArgs.fd ∧
      ∃ word ∈ spoken pid x.req.obj tr, m = word.msg g pid := by
  induction xs using List.reverseRecOn generalizing l l' with
  | nil => exact absurd hsplit.symm (List.append_ne_nil_of_right_ne_nil _ (List.cons_ne_nil _ _))
  | append_singleton xs x ih =>
      obtain ⟨hg, hpid⟩ := hxs x (List.mem_append_right _ (List.mem_singleton_self _))
      rw [List.flatMap_append, List.flatMap_singleton] at hsplit
      have hfirst : ∀ ms ms', stay tr x = ms ++ m :: ms' → ∃ ms₀, ms = x.enterMsg :: ms₀ ∧
          (spoken x.req.pid x.req.obj tr).map (Word.msg x.gameId x.req.pid) = ms₀ ++ m :: ms' := by
        intro ms ms' hstay
        rw [stay] at hstay
        cases ms with
        | nil =>
            rw [← (List.cons.inj hstay).1] at hm
            cases hm
        | cons m₀ ms₀ =>
            obtain ⟨rfl, hrest⟩ := List.cons.inj hstay
            exact ⟨ms₀, rfl, hrest⟩
      rcases List.append_eq_append_iff.mp hsplit with ⟨ms, rfl, hstay⟩ | ⟨ms, hxs', hstay⟩
      · -- the word is of the last stay, after its `enter_player` and some inputs
        obtain ⟨ms₀, rfl, hwords⟩ := hfirst ms l' hstay
        obtain ⟨words, words', hspoken, rfl, hrest⟩ := List.map_eq_append_iff.mp hwords
        obtain ⟨word, words'', rfl, rfl, -⟩ := List.map_eq_cons_iff.mp hrest
        obtain ⟨cs, hcs⟩ := spoken_dropLast h x.req.pid x.req.obj
        have hfirstWords : words <+: cs.map .input := by
          rw [← hcs, hspoken, List.dropLast_append_of_ne_nil (List.cons_ne_nil _ _)]
          exact List.prefix_append _ _
        refine ⟨x, List.mem_append_right _ (List.mem_singleton_self _), ?_, word, ?_, by rw [hg, hpid]⟩
        · rw [List.prefix_iff_eq_take.mp hfirstWords, ← List.map_take, hg, hpid, List.append_cons,
            holder_inputs, holder_snoc]
          exact if_pos ⟨hg, hpid⟩
        · rw [← hpid, hspoken]
          exact List.mem_append_right _ List.mem_cons_self
      · -- the word is of an earlier stay
        cases ms with
        | nil =>
            obtain ⟨ms₀, hnil, -⟩ := hfirst [] l' hstay.symm
            cases hnil
        | cons m₀ ms₀ =>
            obtain ⟨rfl, -⟩ := List.cons.inj hstay
            obtain ⟨y, hy, hword⟩ := ih (fun y hy => hxs y (List.mem_append_left _ hy)) hxs'
            exact ⟨y, List.mem_append_left _ hy, hword⟩

/-- **Stays are orderly.** -/
theorem orderly_stays (h : ServerRun tr w) {g : GameId} {pid : Pid} {xs : List Seat}
    (hxs : ∀ x ∈ xs, x.gameId = g ∧ x.req.pid = pid) : Orderly g pid (xs.flatMap (stay tr)) := by
  intro l m l' hsplit hm
  obtain ⟨x, -, hholder, -⟩ := word_of_stays h hxs hsplit hm
  exact Option.isSome_iff_exists.mpr ⟨_, hholder⟩

/-- **A word finds its pid in the game.** -/
theorem holder_of_word (h : ServerRun tr w) {g : GameId} {pid : Pid} {m : SceneMsg}
    {rest : List SceneMsg} (hmail : w.mail (.scene (getSceneService g)) = m :: rest)
    (habout : m.about g pid = true) (hm : m.isEnter = false) :
    (Scene.fdOf (w.state (.scene (getSceneService g))) g pid).isSome = true := by
  have hlog := congrArg (List.filter (SceneMsg.about g pid)) (handled_append h (.scene (getSceneService g)))
  rw [hmail, sent_stays h, List.filter_append, List.filter_cons_of_pos habout] at hlog
  rw [fdOf_eq h, ← holder_filter]
  exact orderly_stays h (fun x hx => (mem_placesOf.mp hx).2) _ m _ hlog.symm hm

end Order

/-! ## What the calls push -/

namespace Scene

variable [Wire]

/-- The entries that handling a letter pushes into the game `g`, each with the letter. -/
def pushedBy (s : Scene) (g : GameId) (i : Inputs) (m : SceneMsg) : List (SceneMsg × CtrlInfo) :=
  match m.call i, s g with
  | some (gameId, ev), some game =>
      if gameId = g then (game.war.pushed i.clk ev).map fun entry => (m, entry) else []
  | _, _ => []

/-- The entries of a game, in its frames and in the queue. -/
def entries (s : Scene) (g : GameId) : List CtrlInfo :=
  (s g).elim [] fun game => game.war.frameMgr.entries

end Scene

/-- The entry is the one of the call. -/
def SceneMsg.Makes : SceneMsg → CtrlInfo → Prop
  | .enterPlayer _ pid mArgs, entry =>
      ∃ spawn now, entry = FighterWar.enterEntry pid (FWPlayer.init mArgs spawn now)
  | .leavePlayer _ pid, entry => entry = FighterWar.leaveEntry pid
  | .syncCtrl _ _ ctrlData, entry => ctrlData = some entry
  | .newGame _, _ | .syncData .., _ | .c2gsRttData .., _ | .gameOver _, _ => False

/-- The call carries an entry. -/
def SceneMsg.carries : SceneMsg → Bool
  | .syncCtrl _ _ ctrlData => ctrlData.isSome
  | .enterPlayer .. | .leavePlayer .. => true
  | .newGame _ | .syncData .. | .c2gsRttData .. | .gameOver _ => false

section PushLog

variable [Wire] [ServerConfig] {tr : List (World × WorldMove)} {w : World}

omit [ServerConfig] in
/-- What a letter pushes is the entry of the letter. -/
theorem Scene.makes_of_pushedBy {s : Scene} {g : GameId} {i : Inputs} {m : SceneMsg}
    {x : SceneMsg × CtrlInfo} (hx : x ∈ s.pushedBy g i m) : x.1 = m ∧ m.Makes x.2 := by
  rw [pushedBy] at hx
  split at hx
  · rename_i gameId ev game hcall hgame
    split at hx
    · obtain ⟨entry, hentry, rfl⟩ := List.mem_map.mp hx
      -- The call that pushes is the one of the letter, with its own player and data.
      refine ⟨rfl, ?_⟩
      cases m with
      | enterPlayer g' pid mArgs =>
          obtain ⟨-, rfl⟩ := Prod.mk.inj (Option.some.inj hcall)
          rw [FighterWar.pushed] at hentry
          split at hentry
          · cases hentry
          · exact ⟨i.spawn, i.clk.now, List.mem_singleton.mp hentry⟩
      | leavePlayer g' pid =>
          obtain ⟨-, rfl⟩ := Prod.mk.inj (Option.some.inj hcall)
          rw [FighterWar.pushed] at hentry
          split at hentry
          · exact List.mem_singleton.mp hentry
          · cases hentry
      | syncCtrl g' pid ctrlData =>
          obtain ⟨-, rfl⟩ := Prod.mk.inj (Option.some.inj hcall)
          rw [FighterWar.pushed] at hentry
          split at hentry
          · exact Option.mem_toList.mp hentry
          · cases hentry
      | syncData g' pid val =>
          obtain ⟨-, rfl⟩ := Prod.mk.inj (Option.some.inj hcall)
          cases hentry
      | newGame | c2gsRttData | gameOver => cases hcall
    · cases hx
  · cases hx

/-- A letter appends what it pushes to the entries of a game. -/
theorem Scene.entries_receive (s : Scene) (g : GameId) (i : Inputs) (m : SceneMsg)
    (hfresh : m = .newGame g → s g = none) :
    (s.receive i m).state.entries g = s.entries g ++ (s.pushedBy g i m).map Prod.snd := by
  -- a call appends what it pushes, to its own game
  have hcall : ∀ gameId ev, m.call i = some (gameId, ev) →
      (s.receive i m).state.entries g = s.entries g ++ (s.pushedBy g i m).map Prod.snd := by
    intro gameId ev hm
    rw [receive_of_call s hm, entries, call_state, entries, pushedBy, hm]
    cases s g with
    | none => simp
    | some game =>
        by_cases hg : gameId = g
        · simp [hg, FighterWar.entries_step, List.map_map, Function.comp_def]
        · simp [hg]
  cases m with
  | newGame gameId =>
      rw [entries, receive_state, pushedBy, entries]
      dsimp only [SceneMsg.call]
      by_cases hg : gameId = g
      · subst hg
        -- a new game is empty
        rw [if_pos rfl, hfresh rfl]
        rfl
      · rw [if_neg hg, List.map_nil, List.append_nil]
  | gameOver gameId =>
      rw [entries, receive_state, pushedBy, entries]
      dsimp only [SceneMsg.call]
      rw [List.map_nil, List.append_nil]
      split
      · cases s g with
        | none => rfl
        | some game => rfl
      · rfl
  | c2gsRttData gameId pid =>
      rw [entries, receive_state, pushedBy, entries]
      exact (List.append_nil _).symm
  | enterPlayer | leavePlayer | syncCtrl | syncData => exact hcall _ _ rfl

theorem Scene.entries_act (s : Scene) (n : ℕ) (clk : Clock) (x : SceneAct) (g : GameId) :
    (s.act n clk x).state.entries g = s.entries g := by
  rw [entries, act_state, entries]
  cases x with
  | checkOver gameId => rfl
  | frameSkip gameId | syncRtt gameId =>
      dsimp only
      rw [call_state]
      split
      · cases s g with
        | none => rfl
        | some game =>
            refine (FighterWar.entries_step _ _ _).trans ?_
            exact List.append_nil _
      · rfl

/-- The entries that were pushed into the game `g`, each with the call that pushed it. -/
def pushLog (g : GameId) (tr : List (World × WorldMove)) : List (SceneMsg × CtrlInfo) :=
  observed (.scene (getSceneService g)) (fun i (s : Scene) m => s.pushedBy g i m) tr

/-- **The entries of a game are those that calls have pushed**, in order. -/
theorem entries_eq (h : ServerRun tr w) (g : GameId) :
    Scene.entries (w.state (.scene (getSceneService g))) g = (pushLog g tr).map Prod.snd := by
  refine invariant (P := fun tr (w : World) =>
    Scene.entries (w.state (.scene (getSceneService g))) g = (pushLog g tr).map Prod.snd) rfl ?_ ?_ h
  · intro tr (w : World) a i m rest hrun hw hmail
    by_cases ha : a = .scene (getSceneService g)
    · subst ha
      rw [Config.commit_state_same, server_receive_scene, pushLog, observed_deliver _ hmail, ← pushLog,
        List.map_append, ← hw]
      refine Scene.entries_receive _ g i m fun hm => ?_
      subst hm
      exact (newGame_fresh hrun hmail).2
    · rw [Config.commit_state_ne _ _ _ _ (Ne.symm ha), pushLog, observed_deliver_ne _ ha, ← pushLog, hw]
  · intro tr (w : World) a x i hrun hw
    rw [pushLog, observed_act, ← pushLog]
    by_cases ha : a = .scene (getSceneService g)
    · subst ha
      rw [Config.commit_state_same, server_act_scene, Scene.entries_act]
      exact hw
    · rw [Config.commit_state_ne _ _ _ _ (Ne.symm ha)]
      exact hw

/-- Each entry is the one of its call. -/
theorem makes_of_pushLog (h : ServerRun tr w) {g : GameId} {x : SceneMsg × CtrlInfo}
    (hx : x ∈ pushLog g tr) : x.1.Makes x.2 := by
  revert x
  refine invariant (P := fun tr (_ : World) => ∀ {x : SceneMsg × CtrlInfo}, x ∈ pushLog g tr →
    x.1.Makes x.2) ?_ ?_ ?_ h
  · intro x hx
    cases hx
  · intro tr (w : World) a i m rest hrun hw hmail x hx
    by_cases ha : a = .scene (getSceneService g)
    · subst ha
      rw [pushLog, observed_deliver _ hmail, ← pushLog] at hx
      rcases List.mem_append.mp hx with hx | hx
      · exact hw hx
      · obtain ⟨heq, hmakes⟩ := Scene.makes_of_pushedBy hx
        rw [heq]
        exact hmakes
    · rw [pushLog, observed_deliver_ne _ ha, ← pushLog] at hx
      exact hw hx
  · intro tr (w : World) a x i hrun hw y hy
    rw [pushLog, observed_act, ← pushLog] at hy
    exact hw hy

/-- Every frame encodes: neither a tick nor a player who comes makes the game raise. -/
def framesEncode (w : World) : WorldMove → Bool
  | .deliver (.scene n) i => ((w.mail (.scene n)).take 1).all fun m =>
      !m.isEnter || !(Scene.receive (w.state (.scene n)) i m).raised
  | .act (.scene n) (.frameSkip gameId) i =>
      !(Scene.act (w.state (.scene n)) n i.clk (.frameSkip gameId)).raised
  | _ => true

/-- What a letter pushes about `pid` when it is handled in its turn: one entry, if it carries one. -/
theorem pushedBy_about (h : ServerRun tr w) {g : GameId} {pid : Pid} {i : Inputs} {m : SceneMsg}
    {rest : List SceneMsg} (hmail : w.mail (.scene (getSceneService g)) = m :: rest)
    (hencode : framesEncode w (.deliver (.scene (getSceneService g)) i) = true) :
    ((Scene.pushedBy (w.state (.scene (getSceneService g))) g i m).filter
        fun x => x.1.about g pid).map Prod.fst
      = ([m].filter (SceneMsg.about g pid)).filter SceneMsg.carries := by
  -- a letter pushes about its own player only
  have hself : ∀ x ∈ Scene.pushedBy (w.state (.scene (getSceneService g))) g i m, x.1 = m :=
    fun x hx => (Scene.makes_of_pushedBy hx).1
  cases habout : m.about g pid with
  | false =>
      have hnone : (Scene.pushedBy (w.state (.scene (getSceneService g))) g i m).filter
          (fun x => x.1.about g pid) = [] := by
        refine List.filter_eq_nil_iff.mpr fun x hx => ?_
        rw [hself x hx, habout]
        exact Bool.false_ne_true
      rw [hnone, List.filter_cons_of_neg (by simp [habout])]
      rfl
  | true =>
      have hall : (Scene.pushedBy (w.state (.scene (getSceneService g))) g i m).filter
          (fun x => x.1.about g pid) = Scene.pushedBy (w.state (.scene (getSceneService g))) g i m :=
        List.filter_eq_self.mpr fun x hx => by rw [hself x hx, habout]
      rw [hall, List.filter_cons_of_pos habout, List.filter_nil]
      -- a letter that is not a welcome finds its player in the game
      have hword : m.isEnter = false → ∃ game : Game,
          (w.state (.scene (getSceneService g)) : Scene) g = some game ∧
          (game.war.fdOf pid).isSome = true := by
        intro hm
        have hfd := holder_of_word h hmail habout hm
        obtain ⟨fd, hfd⟩ := Option.isSome_iff_exists.mp hfd
        obtain ⟨game, hgame, hpid⟩ := Option.bind_eq_some_iff.mp hfd
        exact ⟨game, hgame, by rw [hpid]; rfl⟩
      cases m with
      | enterPlayer g' q mArgs =>
          obtain ⟨rfl, rfl⟩ := of_decide_eq_true habout
          obtain ⟨-, x, hx, rfl, -⟩ := seat_of_enter h (mem_sent_of_mail h hmail)
          obtain ⟨game, hgame⟩ := Option.isSome_iff_exists.mp (game_of_seat h hx)
          change (w.state (.scene (getSceneService x.gameId)) : Scene) x.gameId = some game at hgame
          -- the welcome is sent, as its frames encode
          have hraised : (game.war.addPlayer q mArgs i.spawn i.clk).raised = false := by
            simpa [framesEncode, hmail, SceneMsg.isEnter, Scene.receive, Scene.call, hgame,
              FighterWar.step] using hencode
          have hpush : Scene.pushedBy (w.state (.scene (getSceneService x.gameId))) x.gameId i
              (.enterPlayer x.gameId q mArgs) = [(.enterPlayer x.gameId q mArgs,
                FighterWar.enterEntry q (FWPlayer.init mArgs i.spawn i.clk.now))] := by
            simp [Scene.pushedBy, SceneMsg.call, hgame, FighterWar.pushed, hraised]
          rw [hpush]
          rfl
      | leavePlayer g' q =>
          obtain ⟨rfl, rfl⟩ := of_decide_eq_true habout
          obtain ⟨game, hgame, hfd⟩ := hword rfl
          have hpush : Scene.pushedBy (w.state (.scene (getSceneService g'))) g' i (.leavePlayer g' q)
              = [(.leavePlayer g' q, FighterWar.leaveEntry q)] := by
            simp [Scene.pushedBy, SceneMsg.call, hgame, FighterWar.pushed, hfd]
          rw [hpush]
          rfl
      | syncCtrl g' q ctrlData =>
          obtain ⟨rfl, rfl⟩ := of_decide_eq_true habout
          obtain ⟨game, hgame, hfd⟩ := hword rfl
          cases ctrlData with
          | none => simp [Scene.pushedBy, SceneMsg.call, hgame, FighterWar.pushed, SceneMsg.carries]
          | some c =>
              have hpush : Scene.pushedBy (w.state (.scene (getSceneService g'))) g' i
                  (.syncCtrl g' q (some c)) = [(.syncCtrl g' q (some c), c)] := by
                simp [Scene.pushedBy, SceneMsg.call, hgame, FighterWar.pushed, hfd]
              rw [hpush]
              rfl
      | newGame | syncData | c2gsRttData | gameOver => cases habout

/-- **The calls about a pid push one entry each**, if they carry one, in the order in which they are
handled. -/
theorem pushLog_about (h : ServerRun tr w) (hencode : ∀ x ∈ tr, framesEncode x.1 x.2 = true)
    (g : GameId) (pid : Pid) : ((pushLog g tr).filter fun x => x.1.about g pid).map Prod.fst
      = ((handled (.scene (getSceneService g)) tr).filter (SceneMsg.about g pid)).filter
        SceneMsg.carries := by
  refine invariant_of_moves (C := fun w e => framesEncode w e = true)
    (P := fun tr (_ : World) => ((pushLog g tr).filter fun x => x.1.about g pid).map Prod.fst
      = ((handled (.scene (getSceneService g)) tr).filter (SceneMsg.about g pid)).filter
        SceneMsg.carries) rfl ?_ ?_ h hencode
  · intro tr (w : World) a i m rest hrun hw hC hmail
    by_cases ha : a = .scene (getSceneService g)
    · subst ha
      rw [pushLog, observed_deliver _ hmail, ← pushLog, handled_deliver hmail, List.filter_append,
        List.map_append, List.filter_append, List.filter_append, hw, pushedBy_about hrun hmail hC]
    · rw [pushLog, observed_deliver_ne _ ha, ← pushLog, handled_deliver_ne ha, hw]
  · intro tr (w : World) a x i hrun hw hC
    rw [pushLog, observed_act, ← pushLog, handled_act, hw]

end PushLog

/-! ## The order of the client -/

/-- The inputs that the client of a connection sent. -/
def ctrlsFrom (fd : Fd) (tr : List (World × WorldMove)) : List (Option CtrlInfo) :=
  tr.flatMap fun x =>
    match x.2 with
    | .act .gamegate (.data fd' (.c2gsCtrlData ctrlData)) _ => if fd' = fd then [ctrlData] else []
    | _ => []

/-- The input of `pid` that a letter brings while the session is the one of `fd`. -/
def AgentMsg.input (pid : Pid) (fd : Fd) (cur : Option Fd) : AgentMsg → List (Option CtrlInfo)
  | .unpack q (.c2gsCtrlData ctrlData) => if q = pid ∧ cur = some fd then [ctrlData] else []
  | .unpack .. | .start .. | .kick _ | .entered .. => []

/-- The inputs of `pid` that some letters bring in sessions of `fd`. -/
def sessionInputs (pid : Pid) (fd : Fd) : Option Fd → List AgentMsg → List (Option CtrlInfo)
  | _, [] => []
  | cur, m :: ms => m.input pid fd cur ++ sessionInputs pid fd (AgentMsg.track pid cur m) ms

theorem sessionInputs_append (pid : Pid) (fd : Fd) (cur : Option Fd) (ms ms' : List AgentMsg) :
    sessionInputs pid fd cur (ms ++ ms') = sessionInputs pid fd cur ms ++
      sessionInputs pid fd (ms.foldl (AgentMsg.track pid) cur) ms' := by
  induction ms generalizing cur with
  | nil => rfl
  | cons m ms ih => rw [List.cons_append, sessionInputs, sessionInputs, ih, List.append_assoc]; rfl

/-- Letters that bring no packet bring no input. -/
theorem sessionInputs_eq_nil {pid : Pid} {fd : Fd} {ms : List AgentMsg}
    (h : ∀ m ∈ ms, ∀ q msg, m ≠ .unpack q msg) (cur : Option Fd) : sessionInputs pid fd cur ms = [] := by
  induction ms generalizing cur with
  | nil => rfl
  | cons m ms ih =>
      rw [sessionInputs, ih fun m' hm' => h m' (List.mem_cons_of_mem _ hm'), List.append_nil]
      cases m with
      | unpack q msg => exact absurd rfl (h _ List.mem_cons_self q msg)
      | start | kick | entered => rfl

section ClientOrder

variable [Wire] [ServerConfig] {tr : List (World × WorldMove)} {w : World}

omit [Wire] [ServerConfig] in
theorem ctrlsFrom_snoc (fd : Fd) (e : WorldMove) :
    ctrlsFrom fd (tr ++ [(w, e)]) = ctrlsFrom fd tr ++ ctrlsFrom fd [(w, e)] := by
  rw [ctrlsFrom, List.flatMap_append]
  rfl

/-- **The gate forwards the inputs of a connection in their order.** -/
theorem sessionInputs_sent (h : ServerRun tr w) {pid : Pid} (hfree : ∀ x ∈ tr, FreeLogin pid x.1 x.2)
    (n : ℕ) (fd : Fd) :
    (sessionInputs pid fd none (server.sent (.agent n) tr)).Sublist (ctrlsFrom fd tr) := by
  refine invariant_of_moves (C := FreeLogin pid) (P := fun tr (w : World) =>
    (∀ x ∈ tr, FreeLogin pid x.1 x.2) →
      (sessionInputs pid fd none (server.sent (.agent n) tr)).Sublist (ctrlsFrom fd tr))
    (fun _ => List.Sublist.slnil) ?_ ?_ h hfree hfree
  · intro tr (w : World) a i m rest hrun hw hC hmail hfree
    have hprev := hw fun x hx => hfree x (List.mem_append_left _ hx)
    have hno : ∀ m' ∈ lettersTo (.agent n) (server.receive a i (w.state a) m).sent, ∀ q msg,
        m' ≠ .unpack q msg := by
      rintro m' hm' q msg rfl
      cases a with
      | sceneMgr =>
          obtain ⟨_, _, _, heq⟩ := sceneMgr_writes_entered hm'
          cases heq
      | gamegate =>
          obtain ⟨fd₀, mArgs⟩ := m
          rw [server_receive_gamegate, Gate.receive, Gate.loginsuc, mem_lettersTo] at hm'
          split at hm'
          · cases List.mem_singleton.mp hm'
          · cases hm'
      | gamelogin | agent k | scene k | broadcast k | socket k =>
          rw [lettersTo_receive rfl] at hm'
          cases hm'
    rw [server.sent_deliver _ hmail, sessionInputs_append, ctrlsFrom_snoc, sessionInputs_eq_nil hno,
      List.append_nil]
    exact hprev.trans (List.sublist_append_left _ _)
  · intro tr (w : World) a x i hrun hw hC hfree
    have hprev := hw fun x hx => hfree x (List.mem_append_left _ hx)
    rw [server.sent_act, sessionInputs_append, ctrlsFrom_snoc]
    refine hprev.append ?_
    cases a with
    | gamegate =>
        cases x with
        | data fd₀ msg =>
            rw [server_act_gamegate]
            show (sessionInputs pid fd _ (lettersTo (.agent n) (w.gate.dispatchMsg fd₀ msg))).Sublist _
            rw [Gate.dispatchMsg]
            split
            · exact List.nil_sublist _
            · rename_i agent q hconn
              by_cases hn : agent = n
              · subst hn
                rw [lettersTo_cons_same, lettersTo_nil, sessionInputs, sessionInputs, List.append_nil]
                cases msg with
                | c2gsCtrlData c =>
                    rw [AgentMsg.input]
                    split
                    · rename_i hcur
                      obtain ⟨rfl, hcur⟩ := hcur
                      -- the session is the one of the connection that is logged in
                      have hlogin : w.gate.loggedIn fd₀ = some (agent, q) := by
                        rw [Gate.loggedIn, hconn]
                        rfl
                      have hsession : session q (server.sent (.agent agent) tr) = some fd₀ :=
                        (matched_run hrun (fun x hx => hfree x (List.mem_append_left _ hx)) agent
                          fd₀).mpr hlogin
                      have hfd : fd₀ = fd := Option.some.inj (hsession.symm.trans hcur)
                      have hctrls : ctrlsFrom fd [(w, .act .gamegate (.data fd₀ (.c2gsCtrlData c)) i)]
                          = [c] := by
                        rw [ctrlsFrom, List.flatMap_singleton]
                        exact if_pos hfd
                      rw [hctrls]
                    · exact List.nil_sublist _
                | c2gsLogin | c2gsPing | c2gsRttData | other => exact List.nil_sublist _
              · rw [lettersTo_cons_ne (by simpa using hn)]
                exact List.nil_sublist _
            · rw [lettersTo_cons_ne (by simp)]
              exact List.nil_sublist _
        | «open» | checkConnections => exact List.nil_sublist _
        | close fd₀ | error fd₀ =>
            rw [server_act_gamegate, sessionInputs_eq_nil]
            · exact List.nil_sublist _
            · intro m' hm' q msg heq
              subst heq
              rw [mem_lettersTo, Gate.act, Gate.sent_delConnection] at hm'
              obtain ⟨l, -, heq⟩ := List.mem_map.mp hm'
              cases heq
    | agent k | scene k =>
        rw [lettersTo_act rfl]
        exact List.nil_sublist _
    | gamelogin | sceneMgr | broadcast k | socket k => cases x

/-- What an agent hears for an object comes in the session of the socket of the object. -/
theorem heard_sublist (h : ServerRun tr w) {pid : Pid} {obj : ℕ} {fd : Fd}
    (hborn : ∀ y, (w.agent (getUserAgent pid)).born[obj]? = some y → y = (pid, fd)) :
    (heard pid obj tr).Sublist
      (sessionInputs pid fd none (handled (.agent (getUserAgent pid)) tr)) := by
  revert hborn
  refine invariant (P := fun tr (w : World) =>
    (∀ y, (w.agent (getUserAgent pid)).born[obj]? = some y → y = (pid, fd)) →
    (heard pid obj tr).Sublist
      (sessionInputs pid fd none (handled (.agent (getUserAgent pid)) tr))) ?_ ?_ ?_ h
  · exact fun _ => List.Sublist.slnil
  · intro tr (w : World) a i m rest hrun hw hmail hborn
    by_cases ha : a = .agent (getUserAgent pid)
    · subst ha
      rw [World.agent, Config.commit_state_same, server_receive_agent, Agent.born_receive] at hborn
      have hborn' : ∀ y, (w.agent (getUserAgent pid)).born[obj]? = some y → y = (pid, fd) := by
        intro y hy
        refine hborn y ?_
        cases m with
        | start q mArgs =>
            dsimp only
            rw [List.getElem?_append_left (List.getElem?_eq_some_iff.mp hy).1]
            exact hy
        | kick | unpack | entered => exact hy
      rw [heard, observed_deliver _ hmail, ← heard, handled_deliver hmail, sessionInputs_append]
      refine (hw hborn').append ?_
      show ((w.agent (getUserAgent pid)).hears pid obj m).Sublist _
      cases m with
      | unpack q msg =>
          cases msg with
          | c2gsCtrlData c =>
              rw [Agent.hears]
              split
              · rename_i hspeaks
                obtain ⟨rfl, hspeaks⟩ := hspeaks
                simp only [Agent.speaks, Bool.and_eq_true, decide_eq_true_eq] at hspeaks
                obtain ⟨p, hp, hid⟩ := (w.agent (getUserAgent q)).id_eq q obj hspeaks.1
                -- the player has the socket of its object, which is the one of the session
                have hfd := (Prod.mk.inj (hborn' _ (Agent.born_getElem? hp))).2
                have hcur : session q (handled (.agent (getUserAgent q)) tr) = some fd := by
                  rw [← current_eq hrun, Agent.current, Agent.getPlayer_eq_some.mpr ⟨hspeaks.1, hp⟩,
                    ← hfd]
                  rfl
                have hinput : AgentMsg.input q fd (session q (handled (.agent (getUserAgent q)) tr))
                    (.unpack q (.c2gsCtrlData c)) = [c] := if_pos ⟨rfl, hcur⟩
                rw [sessionInputs, sessionInputs, List.append_nil]
                exact hinput ▸ List.Sublist.refl _
              · exact List.nil_sublist _
          | c2gsLogin | c2gsPing | c2gsRttData | other => exact List.nil_sublist _
      | start | kick | entered => exact List.nil_sublist _
    · rw [World.agent, Config.commit_state_ne _ _ _ _ (Ne.symm ha)] at hborn
      rw [heard, observed_deliver_ne _ ha, ← heard, handled_deliver_ne ha]
      exact hw hborn
  · intro tr (w : World) a x i hrun hw hborn
    rw [heard, observed_act, ← heard, handled_act]
    by_cases ha : a = .agent (getUserAgent pid)
    · subst ha
      rw [World.agent, Config.commit_state_same, server_act_agent, Agent.born_act] at hborn
      exact hw hborn
    · rw [World.agent, Config.commit_state_ne _ _ _ _ (Ne.symm ha)] at hborn
      exact hw hborn

/-- **The agent hears the inputs of a session in the order in which its client sent them.** -/
theorem heard_in_order (h : ServerRun tr w) {pid : Pid} (hfree : ∀ x ∈ tr, FreeLogin pid x.1 x.2)
    {x : Seat} (hx : x ∈ seated tr) (hpid : x.req.pid = pid) :
    (heard pid x.req.obj tr).Sublist (ctrlsFrom x.req.mArgs.fd tr) := by
  subst hpid
  have hhandled : sessionInputs x.req.pid x.req.mArgs.fd none
      (handled (.agent (getUserAgent x.req.pid)) tr) <+:
      sessionInputs x.req.pid x.req.mArgs.fd none
        (server.sent (.agent (getUserAgent x.req.pid)) tr) := by
    rw [← handled_append h, sessionInputs_append]
    exact List.prefix_append _ _
  refine (heard_sublist h fun y hy => ?_).trans
    (hhandled.sublist.trans (sessionInputs_sent h hfree _ _))
  obtain ⟨p, hp, hid, hfd⟩ := object_of_seat h hx
  rw [source_of_seat h hx] at hp
  have hborn := Agent.born_getElem? hp
  rw [hid, hfd] at hborn
  exact Option.some.inj (hy.symm.trans hborn)

end ClientOrder

/-! ## Exactly once -/

section Delivered

variable [Wire] [ServerConfig] {tr : List (World × WorldMove)} {w : World}

/-- The inputs of a session that carry an entry. -/
def inputsOf (pid : Pid) (obj : ℕ) (tr : List (World × WorldMove)) : List CtrlInfo :=
  (heard pid obj tr).filterMap id

/-- The calls by which a session pushes into its game: its ENTER, its inputs, and its LEAVE if it was
kicked from there. -/
def sessionPushes (tr : List (World × WorldMove)) (x : Seat) : List SceneMsg :=
  x.enterMsg :: (inputsOf x.req.pid x.req.obj tr).map
    (fun c => .syncCtrl x.gameId x.req.pid (some c)) ++
    if .leave ∈ spoken x.req.pid x.req.obj tr then [.leavePlayer x.gameId x.req.pid] else []

omit [Wire] [ServerConfig] in
/-- The inputs that carry an entry, as calls. -/
theorem carries_inputs (g : GameId) (pid : Pid) (cs : List (Option CtrlInfo)) :
    ((cs.map Word.input).map (Word.msg g pid)).filter SceneMsg.carries
      = (cs.filterMap id).map fun c => .syncCtrl g pid (some c) := by
  induction cs with
  | nil => rfl
  | cons c cs ih =>
      rw [List.map_cons, List.map_cons]
      cases c with
      | none => exact (List.filter_cons_of_neg Bool.false_ne_true).trans ih
      | some c => exact (List.filter_cons_of_pos rfl).trans (congrArg (_ :: ·) ih)

/-- The calls of a stay that carry an entry. -/
theorem carries_stay (h : ServerRun tr w) (x : Seat) :
    (stay tr x).filter SceneMsg.carries = sessionPushes tr x := by
  rw [stay, sessionPushes, List.filter_cons_of_pos rfl, List.cons_append]
  refine congrArg (x.enterMsg :: ·) ?_
  rcases spoken_cases h x.req.pid x.req.obj with hspoken | ⟨hspoken, -, -⟩
  · rw [hspoken, carries_inputs, if_neg (by simp), List.append_nil]
    rfl
  · rw [hspoken, List.map_append, List.filter_append, carries_inputs, if_pos (by simp)]
    rfl

/-- **Exactly once, in order.** When no connection logs in as `pid` while another one is logged in as
`pid`, and every frame encodes, the calls about `pid` that pushed into a game are, stay by stay, the
ENTER of the session, its inputs and its LEAVE, up to those that still wait; each pushed its own entry,
and the entries of the game are those pushed. The inputs of a session are in the order in which its
client sent them, and a session has one game. -/
theorem inputs_delivered (h : ServerRun tr w) {pid : Pid} (hfree : ∀ x ∈ tr, FreeLogin pid x.1 x.2)
    (hencode : ∀ x ∈ tr, framesEncode x.1 x.2 = true) (g : GameId) :
    ((pushLog g tr).filter fun x => x.1.about g pid).map Prod.fst
      <+: (placesOf g pid tr).flatMap (sessionPushes tr) ∧
    (w.mail (.scene (getSceneService g)) = [] →
      ((pushLog g tr).filter fun x => x.1.about g pid).map Prod.fst
        = (placesOf g pid tr).flatMap (sessionPushes tr)) ∧
    (∀ x ∈ pushLog g tr, x.1.Makes x.2) ∧
    Scene.entries (w.state (.scene (getSceneService g))) g = (pushLog g tr).map Prod.snd ∧
    (∀ x ∈ placesOf g pid tr, (heard pid x.req.obj tr).Sublist (ctrlsFrom x.req.mArgs.fd tr)) ∧
    ∀ x ∈ seated tr, ∀ y ∈ seated tr, x.req.source = y.req.source → x.req.obj = y.req.obj → x = y := by
  have hstays : ((server.sent (.scene (getSceneService g)) tr).filter (SceneMsg.about g pid)).filter
      SceneMsg.carries = (placesOf g pid tr).flatMap (sessionPushes tr) := by
    rw [sent_stays h, List.filter_flatMap]
    exact List.flatMap_congr fun x _ => carries_stay h x
  refine ⟨?_, fun hmail => ?_, fun x hx => makes_of_pushLog h hx, entries_eq h g, fun x hx => ?_, ?_⟩
  · rw [pushLog_about h hencode, ← hstays]
    exact ((handled_first h (.scene (getSceneService g))).filter _).filter _
  · have hlog := handled_append h (.scene (getSceneService g))
    rw [hmail, List.append_nil] at hlog
    rw [pushLog_about h hencode, hlog, hstays]
  · obtain ⟨hseated, -, hpid⟩ := mem_placesOf.mp hx
    exact heard_in_order h hfree hseated hpid
  · intro x hx y hy hsource hobj
    exact List.inj_on_of_nodup_map (nodup_seated h) hx hy (Prod.ext hsource hobj)

end Delivered

section OneInput

attribute [local instance] sprotoWire gameConfig

/-- Player 1 presses the key for up: the direction 1 with the status 1. -/
def upEntry : CtrlInfo where
  pid := some 1
  action := some actionMove
  moveInfo := some ⟨some 1, some 1⟩

/-- Player 1 enters the first game, goes up, and leaves. -/
def moveOnce : List WorldMove :=
  [report .open] ++ logIn 1 1 ++ firstEnter 1 ++ [report (.data 1 (.c2gsCtrlData (some upEntry))),
    next (.agent 1), next (.scene 1), report (.close 1), next (.agent 1), next (.scene 1)]

/-- Its ENTER, its move and its LEAVE are pushed. -/
theorem inputs_delivered_move :
    ∃ w : World, runFrom server.step World.init moveOnce = some w ∧
      ((pushLog 1 (traceFrom server.step World.init moveOnce)).filter
        fun x => x.1.about 1 1).map Prod.fst
      = (placesOf 1 1 (traceFrom server.step World.init moveOnce)).flatMap
        (sessionPushes (traceFrom server.step World.init moveOnce)) := by
  have hrun : (runFrom server.step World.init moveOnce).any
      (fun (w : World) => (w.mail (.scene (getSceneService 1))).isEmpty) = true := by decide +kernel
  obtain ⟨w, hw, hmail⟩ := Option.any_eq_true _ _ |>.mp hrun
  have hfree : ∀ x ∈ traceFrom server.step World.init moveOnce,
      ∀ pid, FreeLogin pid x.1 x.2 := by decide +kernel
  have hencode : ∀ x ∈ traceFrom server.step World.init moveOnce,
      framesEncode x.1 x.2 = true := by decide +kernel
  exact ⟨w, hw, (inputs_delivered (run_of_runFrom hw) (fun x hx => hfree x hx 1) hencode 1).2.1
    (List.isEmpty_iff.mp hmail)⟩

end OneInput

end FrameSync
