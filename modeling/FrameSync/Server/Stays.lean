import FrameSync.Server.Games

/-! # Stays

A player comes to a game by one path and speaks to it by another: `enter_player` is sent by the scene
manager, `sync_ctrl` and `leave_player` by the agent. Still the letters about one pid reach a game stay
by stay, for each place in turn its `enter_player`, the inputs of its session and its leave
(`sent_stays`): a session speaks after it was told its game, and it is told after the `enter_player`
was sent; and a session that speaks has the last place of its pid. -/

namespace FrameSync

open Behaviour

/-! ## What a session says -/

/-- What a session says to its game. -/
inductive Word
  /-- `sync_ctrl` -/
  | input (ctrlData : Option CtrlInfo)
  /-- `leave_player` -/
  | leave
  deriving Repr, DecidableEq

/-- The letter to the scene. -/
def Word.msg (gameId : GameId) (pid : Pid) : Word → SceneMsg
  | .input ctrlData => .syncCtrl gameId pid ctrlData
  | .leave => .leavePlayer gameId pid

/-- The letter makes the game `gameId` push an entry about `pid`. -/
def SceneMsg.about (gameId : GameId) (pid : Pid) : SceneMsg → Bool
  | .enterPlayer g q _ | .leavePlayer g q | .syncCtrl g q _ => g = gameId ∧ q = pid
  | .newGame _ | .syncData .. | .c2gsRttData .. | .gameOver _ => false

/-- Such a letter is one of those that push. -/
theorem SceneMsg.about_and_pushes (gameId : GameId) (pid : Pid) :
    (fun m => SceneMsg.about gameId pid m && SceneMsg.pushes m) = SceneMsg.about gameId pid := by
  funext m
  cases m with
  | enterPlayer | leavePlayer | syncCtrl => exact Bool.and_true _
  | newGame | syncData | c2gsRttData | gameOver => rfl

namespace Agent

/-- The object is the player of `pid` and knows its game. -/
def speaks (s : Agent) (pid : Pid) (obj : ℕ) : Bool :=
  s.playerlist pid = some obj && (s.warOf obj).isSome

/-- What a letter makes the object `obj` of `pid` say. -/
def words (s : Agent) (pid : Pid) (obj : ℕ) : AgentMsg → List Word
  | .unpack q (.c2gsCtrlData ctrlData) => if q = pid ∧ s.speaks pid obj then [.input ctrlData] else []
  | .kick q => if q = pid ∧ s.speaks pid obj then [.leave] else []
  | .unpack .. | .start .. | .entered .. => []

/-- A session that says something is the player and knows its game. -/
theorem speaks_of_words {s : Agent} {pid : Pid} {obj : ℕ} {m : AgentMsg} (h : s.words pid obj m ≠ []) :
    s.speaks pid obj = true := by
  cases m with
  | unpack q msg =>
      cases msg with
      | c2gsCtrlData ctrlData =>
          rw [words] at h
          split at h
          · rename_i hspeaks
            exact hspeaks.2
          · exact absurd rfl h
      | c2gsLogin | c2gsPing | c2gsRttData | other => exact absurd rfl h
  | kick q =>
      rw [words] at h
      split at h
      · rename_i hspeaks
        exact hspeaks.2
      · exact absurd rfl h
  | start | entered => exact absurd rfl h

variable [ServerConfig]

/-- The letter of a player to its game, among the letters about `pid` in `g`. -/
theorem lettersTo_game {war : Option (GameId × ℕ)}
    (hscene : ∀ g scene, war = some (g, scene) → scene = getSceneService g) {f : GameId → SceneMsg}
    {g : GameId} {pid q : Pid} (hf : ∀ g', (f g').about g pid = decide (g' = g ∧ q = pid)) :
    (lettersTo (.scene (getSceneService g))
      (war.toList.map fun x => (⟨.scene x.2, f x.1⟩ : Letter Msg))).filter (SceneMsg.about g pid)
      = if q = pid ∧ war.map Prod.fst = some g then [f g] else [] := by
  cases war with
  | none => simp
  | some x =>
      obtain ⟨g', scene⟩ := x
      obtain rfl := hscene g' scene rfl
      rw [Option.toList_some, List.map_singleton, Option.map_some]
      by_cases hg : g' = g
      · subst hg
        rw [lettersTo_cons_same, lettersTo_nil, List.filter_cons, hf, List.filter_nil]
        simp
      · rw [if_neg (by simp [hg])]
        by_cases hk : getSceneService g' = getSceneService g
        · rw [hk, lettersTo_cons_same, lettersTo_nil, List.filter_cons, hf, List.filter_nil]
          simp [hg]
        · rw [lettersTo_cons_ne (by simpa using hk)]
          rfl

/-- **What an agent that handles a letter has to say about `pid` to `g`** are the words of the player
of `pid`, if `g` is its game. -/
theorem about_pushes (s : Agent) (m : AgentMsg) {g : GameId} (pid : Pid)
    (hscene : ∀ obj g scene, s.warOf obj = some (g, scene) → scene = getSceneService g) :
    (lettersTo (.scene (getSceneService g)) (s.pushes m)).filter (SceneMsg.about g pid)
      = (s.playerlist pid).toList.flatMap fun obj =>
          if (s.warOf obj).map Prod.fst = some g then (s.words pid obj m).map (Word.msg g pid) else [] := by
  -- only a letter about `pid` itself can be answered
  have hplayer : ∀ (q : Pid) (f : Pid → GameId → SceneMsg) (word : Word),
      (∀ q' g', (f q' g').about g pid = decide (g' = g ∧ q' = pid)) → f pid g = word.msg g pid →
      (∀ obj, s.words pid obj m = if q = pid ∧ s.speaks pid obj then [word] else []) →
      (lettersTo (.scene (getSceneService g)) ((s.getPlayer q).toList.flatMap fun x =>
        x.2.war.toList.map fun y => (⟨.scene y.2, f x.2.id y.1⟩ : Letter Msg))).filter
          (SceneMsg.about g pid)
        = (s.playerlist pid).toList.flatMap fun obj => if (s.warOf obj).map Prod.fst = some g then
            (s.words pid obj m).map (Word.msg g pid) else [] := by
    intro q f word habout hword hwords
    cases hq : s.getPlayer q with
    | none =>
        rw [Option.toList_none, List.flatMap_nil, lettersTo_nil, List.filter_nil]
        refine (List.flatMap_eq_nil_iff.mpr fun obj hobj => ?_).symm
        split
        · rw [hwords, if_neg, List.map_nil]
          rintro ⟨rfl, -⟩
          obtain ⟨p, hp, -⟩ := s.id_eq q obj (Option.mem_toList.mp hobj)
          rw [getPlayer_eq_some.mpr ⟨Option.mem_toList.mp hobj, hp⟩] at hq
          cases hq
        · rfl
    | some x =>
        obtain ⟨obj, p⟩ := x
        obtain ⟨hobj, hp⟩ := getPlayer_eq_some.mp hq
        have hid := id_getPlayer hq
        have hwar := warOf_getPlayer hq
        rw [Option.toList_some, List.flatMap_singleton, hid]
        refine (lettersTo_game (fun g' scene hg' => hscene obj g' scene (hwar.trans hg'))
          (habout q)).trans ?_
        by_cases hqp : q = pid
        · subst hqp
          rw [hobj, Option.toList_some, List.flatMap_singleton, hwords, speaks, hobj, hwar]
          cases p.war with
          | none => simp
          | some y => simp [hword]
        · rw [if_neg fun hboth => hqp hboth.1]
          refine (List.flatMap_eq_nil_iff.mpr fun obj' _ => ?_).symm
          split
          · rw [hwords, if_neg fun hboth => hqp hboth.1, List.map_nil]
          · rfl
  have hsilent : s.pushes m = [] → (∀ obj, s.words pid obj m = []) →
      (lettersTo (.scene (getSceneService g)) (s.pushes m)).filter (SceneMsg.about g pid)
        = (s.playerlist pid).toList.flatMap fun obj => if (s.warOf obj).map Prod.fst = some g then
            (s.words pid obj m).map (Word.msg g pid) else [] := by
    intro hpushes hwords
    rw [hpushes]
    refine (List.flatMap_eq_nil_iff.mpr fun obj _ => ?_).symm
    rw [hwords, List.map_nil]
    exact ite_self _
  cases m with
  | kick q =>
      exact hplayer q (fun q' g' => .leavePlayer g' q') .leave (fun _ _ => rfl) rfl fun _ => rfl
  | unpack q msg =>
      cases msg with
      | c2gsCtrlData c =>
          exact hplayer q (fun q' g' => .syncCtrl g' q' c) (.input c) (fun _ _ => rfl) rfl fun _ => rfl
      | c2gsLogin | c2gsPing | c2gsRttData | other => exact hsilent rfl fun _ => rfl
  | start | entered => exact hsilent rfl fun _ => rfl

end Agent

/-! ## The places of a player in a game -/

/-- A list in which only the last part grows. -/
theorem flatMap_grow {α β : Type} {l : List α} {f e : α → List β} (h : ∀ x ∈ l.dropLast, e x = []) :
    (l.flatMap fun x => f x ++ e x) = l.flatMap f ++ l.flatMap e := by
  rcases List.eq_nil_or_concat l with rfl | ⟨l₀, x, rfl⟩
  · rfl
  · rw [List.concat_eq_append] at h ⊢
    rw [List.dropLast_concat] at h
    have hfirst : (l₀.flatMap fun x => f x ++ e x) = l₀.flatMap f :=
      List.flatMap_congr fun y hy => by rw [h y hy, List.append_nil]
    have hnone : l₀.flatMap e = [] := List.flatMap_eq_nil_iff.mpr h
    rw [List.flatMap_append, List.flatMap_append, List.flatMap_append, hfirst, hnone,
      List.flatMap_singleton, List.flatMap_singleton, List.flatMap_singleton, List.nil_append,
      List.append_assoc]

section Stays

variable [Wire] [ServerConfig] {tr : List (World × WorldMove)} {w : World}

/-- The places of `pid` in the game `g`. -/
def placesOf (g : GameId) (pid : Pid) (tr : List (World × WorldMove)) : List Seat :=
  (seated tr).filter fun x => x.gameId = g ∧ x.req.pid = pid

omit [Wire] in
theorem mem_placesOf {g : GameId} {pid : Pid} {x : Seat} :
    x ∈ placesOf g pid tr ↔ x ∈ seated tr ∧ x.gameId = g ∧ x.req.pid = pid := by
  simp [placesOf, List.mem_filter]

/-- The objects of an agent are of its own pids. -/
theorem routed_born (h : ServerRun tr w) {n : ℕ} {pid : Pid} {fd : Fd}
    (hm : (pid, fd) ∈ (w.agent n).born) : getUserAgent pid = n := by
  revert pid fd
  refine invariant (P := fun _ (w : World) => ∀ {pid : Pid} {fd : Fd}, (pid, fd) ∈ (w.agent n).born →
    getUserAgent pid = n) ?_ ?_ ?_ h
  · intro pid fd hm
    cases hm
  · intro tr (w : World) a i m rest hrun hw hmail pid fd hm
    by_cases ha : a = .agent n
    · subst ha
      rw [World.agent, Config.commit_state_same, server_receive_agent, Agent.born_receive] at hm
      cases m with
      | start q mArgs =>
          rcases List.mem_append.mp hm with hm | hm
          · exact hw hm
          · obtain ⟨rfl, -⟩ := Prod.mk.inj (List.mem_singleton.mp hm)
            exact (routed_mail hrun hmail).1
      | kick | unpack | entered => exact hw hm
    · rw [World.agent, Config.commit_state_ne _ _ _ _ (Ne.symm ha)] at hm
      exact hw hm
  · intro tr (w : World) a x i hrun hw pid fd hm
    by_cases ha : a = .agent n
    · subst ha
      rw [World.agent, Config.commit_state_same, server_act_agent, Agent.born_act] at hm
      exact hw hm
    · rw [World.agent, Config.commit_state_ne _ _ _ _ (Ne.symm ha)] at hm
      exact hw hm

/-- A place is asked for by the agent of its pid. -/
theorem source_of_seat (h : ServerRun tr w) {x : Seat} (hx : x ∈ seated tr) :
    x.req.source = getUserAgent x.req.pid := by
  obtain ⟨p, hp, hid, -⟩ := object_of_seat h hx
  have hborn := Agent.born_getElem? hp
  rw [hid] at hborn
  exact (routed_born h (List.mem_of_getElem? hborn)).symm

/-- The places of a pid in a game are in the order of its objects. -/
theorem sorted_placesOf (h : ServerRun tr w) (g : GameId) (pid : Pid) :
    (placesOf g pid tr).Pairwise fun x y => x.req.obj < y.req.obj := by
  have hsub : (placesOf g pid tr).Sublist
      (((seated tr).filter fun x => x.gameId = g).filter fun x => x.req.source = getUserAgent pid) := by
    have heq : placesOf g pid tr = (((seated tr).filter fun x => x.gameId = g).filter
        fun x => x.req.source = getUserAgent pid).filter fun x => x.req.pid = pid := by
      rw [List.filter_filter, List.filter_filter, placesOf]
      refine List.filter_congr fun x hx => ?_
      have hsource := source_of_seat h hx
      by_cases hpid : x.req.pid = pid
      · rw [hpid] at hsource
        simp [hpid, hsource]
      · simp [hpid]
    rw [heq]
    exact List.filter_sublist
  exact (sorted_seated h g (getUserAgent pid)).sublist hsub

/-- The player of a pid has the last of its places in its game. -/
theorem last_of_playerlist (h : ServerRun tr w) {g : GameId} {pid : Pid} {x : Seat}
    (hx : x ∈ (placesOf g pid tr).dropLast) :
    (w.agent (getUserAgent pid)).playerlist pid ≠ some x.req.obj := by
  intro hobj
  rcases List.eq_nil_or_concat (placesOf g pid tr) with hnil | ⟨l₀, y, hlast⟩
  · rw [hnil] at hx
    cases hx
  · rw [List.concat_eq_append] at hlast
    have hsorted := sorted_placesOf h g pid
    rw [hlast, List.dropLast_concat] at hx
    rw [hlast] at hsorted
    have hlt := (List.pairwise_append.mp hsorted).2.2 x hx y (List.mem_singleton_self _)
    obtain ⟨hy, -, hpid⟩ := mem_placesOf.mp (hlast ▸ List.mem_append_right l₀ (List.mem_singleton_self y))
    obtain ⟨p, hp, hid, -⟩ := object_of_seat h hy
    rw [source_of_seat h hy, hpid] at hp
    have hborn := Agent.born_getElem? hp
    rw [hid, hpid] at hborn
    exact absurd hlt (Nat.not_lt_of_le (latest_playerlist h _ hobj _ _ hborn))

/-- So a letter draws words from no place but the last. -/
theorem words_of_dropLast (h : ServerRun tr w) {g : GameId} {pid : Pid} (m : AgentMsg) {x : Seat}
    (hx : x ∈ (placesOf g pid tr).dropLast) :
    (w.agent (getUserAgent pid)).words pid x.req.obj m = [] := by
  by_contra hwords
  have hspeaks := Agent.speaks_of_words hwords
  simp only [Agent.speaks, Bool.and_eq_true, decide_eq_true_eq] at hspeaks
  exact last_of_playerlist h hx hspeaks.1

/-- What the object `obj` of `pid` has said. -/
def spoken (pid : Pid) (obj : ℕ) (tr : List (World × WorldMove)) : List Word :=
  observed (.agent (getUserAgent pid)) (fun _ (s : Agent) m => s.words pid obj m) tr

/-- An object that has not been told its game says nothing, and it is told the game of its place. -/
theorem isSeat_of_spoken (h : ServerRun tr w) {pid : Pid} {obj : ℕ} (hsaid : spoken pid obj tr ≠ []) :
    ∃ g, IsSeat tr (getUserAgent pid) obj g := by
  revert hsaid
  refine invariant (P := fun tr (_ : World) => spoken pid obj tr ≠ [] →
    ∃ g, IsSeat tr (getUserAgent pid) obj g) ?_ ?_ ?_ h
  · exact fun hsaid => absurd rfl hsaid
  · intro tr (w : World) a i m rest hrun hw hmail hsaid
    by_cases hold : spoken pid obj tr = []
    · by_cases ha : a = .agent (getUserAgent pid)
      · subst ha
        rw [spoken, observed_deliver _ hmail, ← spoken, hold, List.nil_append] at hsaid
        have hspeaks := Agent.speaks_of_words hsaid
        simp only [Agent.speaks, Bool.and_eq_true, Option.isSome_iff_exists] at hspeaks
        obtain ⟨-, ⟨g, scene⟩, hwar⟩ := hspeaks
        exact ⟨g, (isSeat_of_warOf hrun hwar).1.snoc _⟩
      · rw [spoken, observed_deliver_ne _ ha, ← spoken] at hsaid
        exact absurd hold hsaid
    · obtain ⟨g, hg⟩ := hw hold
      exact ⟨g, hg.snoc _⟩
  · intro tr (w : World) a x i hrun hw hsaid
    rw [spoken, observed_act, ← spoken] at hsaid
    obtain ⟨g, hg⟩ := hw hsaid
    exact ⟨g, hg.snoc _⟩

/-- A session that has no place has said nothing. -/
theorem spoken_of_new (h : ServerRun tr w) {i : Inputs} {m : MgrMsg} {rest : List MgrMsg}
    (hmail : w.mail .sceneMgr = m :: rest) {x : Seat} (hx : x ∈ w.sceneMgr.seats m) :
    spoken x.req.pid x.req.obj tr = [] := by
  have hnext := runs_deliver h i hmail
  have hseated := seated_deliver h (i := i) hmail
  have hmem : x ∈ seated (tr ++ [(w, .deliver .sceneMgr i)]) := hseated ▸ List.mem_append_right _ hx
  by_contra hsaid
  obtain ⟨g, y, hy, hsource, hobj, -⟩ := isSeat_of_spoken h hsaid
  -- the object would have two places
  have hnodup := nodup_seated hnext
  rw [hseated, List.map_append] at hnodup
  refine (List.nodup_append.mp hnodup).2.2 _ (List.mem_map_of_mem hy) _ (List.mem_map_of_mem hx) ?_
  rw [hsource, hobj, source_of_seat hnext hmem]

/-- The letters about one stay: the `enter_player` for a place, and what its object says. -/
def stay (tr : List (World × WorldMove)) (x : Seat) : List SceneMsg :=
  x.enterMsg :: (spoken x.req.pid x.req.obj tr).map (Word.msg x.gameId x.req.pid)

/-- What the scene manager has to say about `pid` to `g`: its places. -/
theorem SceneMgr.about_receive (h : ServerRun tr w) (msg : MgrMsg) (g : GameId) (pid : Pid) :
    (lettersTo (.scene (getSceneService g)) (w.sceneMgr.receive msg).sent).filter
        (SceneMsg.about g pid)
      = ((w.sceneMgr.seats msg).filter fun x => x.gameId = g ∧ x.req.pid = pid).map Seat.enterMsg := by
  have henter : (lettersTo (.scene (getSceneService g)) (w.sceneMgr.receive msg).sent).filter
      (SceneMsg.about g pid) = ((lettersTo (.scene (getSceneService g))
        (w.sceneMgr.receive msg).sent).filter SceneMsg.isEnter).filter (SceneMsg.about g pid) := by
    rw [List.filter_filter]
    refine List.filter_congr fun m hm => ?_
    have hmgr := SceneMgr.ofMgr_receive hm
    cases m with
    | enterPlayer => exact (Bool.and_true _).symm
    | newGame | gameOver => rfl
    | leavePlayer | syncCtrl | syncData | c2gsRttData => cases hmgr
  have hfilter : ∀ ls : List (Letter Msg), (lettersTo (.scene (getSceneService g)) ls).filter
      SceneMsg.isEnter = lettersTo (.scene (getSceneService g)) (ls.filter isEnter) :=
    @filter_lettersTo _ Msg _ (.scene (getSceneService g)) SceneMsg.isEnter isEnter
      fun m => by cases m <;> rfl
  rw [henter, hfilter, (sceneMgr_served h).1, (SceneMgr.sent_seats _ msg).1, lettersTo_enter,
    List.filter_map, List.filter_filter]
  refine congrArg (List.map Seat.enterMsg) (List.filter_congr fun x _ => ?_)
  simp only [Function.comp, Seat.enterMsg, SceneMsg.about]
  by_cases hg : x.gameId = g
  · simp [hg]
  · simp [hg]

/-- The words that a letter draws from the player of `pid`, if `g` is its game, are those it draws from
the places of `pid` in `g`. -/
theorem words_placesOf (h : ServerRun tr w) (g : GameId) (pid : Pid) (m : AgentMsg) :
    (((w.agent (getUserAgent pid)).playerlist pid).toList.flatMap fun obj =>
        if ((w.agent (getUserAgent pid)).warOf obj).map Prod.fst = some g then
          ((w.agent (getUserAgent pid)).words pid obj m).map (Word.msg g pid) else [])
      = (placesOf g pid tr).flatMap fun x =>
          ((w.agent (getUserAgent pid)).words pid x.req.obj m).map (Word.msg g pid) := by
  have hfirst : ∀ x ∈ (placesOf g pid tr).dropLast,
      ((w.agent (getUserAgent pid)).words pid x.req.obj m).map (Word.msg g pid) = [] :=
    fun x hx => by rw [words_of_dropLast h m hx, List.map_nil]
  by_cases hwar : ∃ obj scene, (w.agent (getUserAgent pid)).playerlist pid = some obj ∧
      (w.agent (getUserAgent pid)).warOf obj = some (g, scene)
  · obtain ⟨obj, scene, hobj, hwar⟩ := hwar
    obtain ⟨x, hx, hsource, rfl, rfl⟩ := (isSeat_of_warOf h hwar).1
    -- the place of the player is the last one
    have hmem : x ∈ placesOf x.gameId pid tr := by
      obtain ⟨p, hp, hid⟩ := (w.agent (getUserAgent pid)).id_eq pid x.req.obj hobj
      obtain ⟨p', hp', hid', -⟩ := object_of_seat h hx
      rw [hsource, hp] at hp'
      obtain rfl := Option.some.inj hp'
      exact mem_placesOf.mpr ⟨hx, rfl, hid'.symm.trans hid⟩
    rcases List.eq_nil_or_concat (placesOf x.gameId pid tr) with hnil | ⟨l₀, y, hlast⟩
    · rw [hnil] at hmem
      cases hmem
    · rw [List.concat_eq_append] at hlast
      rw [hlast, List.dropLast_concat] at hfirst
      have hxy : x = y := by
        rw [hlast] at hmem
        refine (List.mem_append.mp hmem).elim (fun hl₀ => ?_) List.mem_singleton.mp
        refine absurd hobj (last_of_playerlist h (g := x.gameId) ?_)
        rwa [hlast, List.dropLast_concat]
      rw [hobj, Option.toList_some, List.flatMap_singleton, hwar, Option.map_some, if_pos rfl, hlast,
        List.flatMap_append, List.flatMap_eq_nil_iff.mpr hfirst, List.flatMap_singleton, ← hxy,
        List.nil_append]
  · have hleft : (((w.agent (getUserAgent pid)).playerlist pid).toList.flatMap fun obj =>
        if ((w.agent (getUserAgent pid)).warOf obj).map Prod.fst = some g then
          ((w.agent (getUserAgent pid)).words pid obj m).map (Word.msg g pid) else []) = [] := by
      refine List.flatMap_eq_nil_iff.mpr fun obj hobj => if_neg fun hg => hwar ?_
      obtain ⟨⟨g', scene⟩, hwar', rfl⟩ := Option.map_eq_some_iff.mp hg
      exact ⟨obj, scene, Option.mem_toList.mp hobj, hwar'⟩
    rw [hleft]
    refine (List.flatMap_eq_nil_iff.mpr fun x hx => ?_).symm
    by_contra hsaid
    have hspeaks := Agent.speaks_of_words fun hnil => hsaid (by rw [hnil, List.map_nil])
    simp only [Agent.speaks, Bool.and_eq_true, decide_eq_true_eq, Option.isSome_iff_exists] at hspeaks
    obtain ⟨hobj, ⟨g', scene⟩, hwar'⟩ := hspeaks
    obtain ⟨hseated, rfl, hpid⟩ := mem_placesOf.mp hx
    have hseat : IsSeat tr (getUserAgent pid) x.req.obj x.gameId :=
      ⟨x, hseated, by rw [source_of_seat h hseated, hpid], rfl, rfl⟩
    obtain rfl := hseat.unique h (isSeat_of_warOf h hwar').1
    exact hwar ⟨x.req.obj, scene, hobj, hwar'⟩

/-- **The letters about a player reach a game stay by stay.** -/
theorem sent_stays (h : ServerRun tr w) (g : GameId) (pid : Pid) :
    (server.sent (.scene (getSceneService g)) tr).filter (SceneMsg.about g pid)
      = (placesOf g pid tr).flatMap (stay tr) := by
  refine invariant (P := fun tr (_ : World) =>
    (server.sent (.scene (getSceneService g)) tr).filter (SceneMsg.about g pid)
      = (placesOf g pid tr).flatMap (stay tr)) rfl ?_ ?_ h
  · intro tr (w : World) a i m rest hrun hw hmail
    rw [server.sent_deliver _ hmail, List.filter_append, hw]
    -- only the scene manager adds a place, and only the agent of the pid says more
    have hquiet : ∀ {a : Addr} {i : Inputs}, a ≠ .sceneMgr → a ≠ .agent (getUserAgent pid) →
        (placesOf g pid (tr ++ [(w, .deliver a i)])).flatMap (stay (tr ++ [(w, .deliver a i)]))
          = (placesOf g pid tr).flatMap (stay tr) := by
      intro a i ha ha'
      rw [placesOf, seated_deliver_ne ha, ← placesOf]
      refine List.flatMap_congr fun x hx => ?_
      rw [stay, stay, spoken, spoken, (mem_placesOf.mp hx).2.2, observed_deliver_ne _ ha']
    cases a with
    | sceneMgr =>
        -- what was said for the places there were is as it was, and a new place has heard nothing
        have hstays : ∀ x ∈ seated tr ++ w.sceneMgr.seats m,
            stay (tr ++ [(w, .deliver .sceneMgr i)]) x = stay tr x := by
          intro x hx
          rw [stay, stay, spoken, spoken, observed_deliver_ne _ (by simp)]
        rw [server_receive_sceneMgr, SceneMgr.about_receive hrun, placesOf, placesOf,
          seated_deliver hrun hmail, List.filter_append, List.flatMap_append]
        refine congrArg₂ (· ++ ·) (List.flatMap_congr fun x hx => ?_) ?_
        · exact (hstays x (List.mem_append_left _ (List.mem_filter.mp hx).1)).symm
        · rw [← List.flatMap_pure_eq_map]
          refine List.flatMap_congr fun x hx => ?_
          have hmem := (List.mem_filter.mp hx).1
          rw [hstays x (List.mem_append_right _ hmem), stay, spoken_of_new hrun (i := i) hmail hmem]
          rfl
    | agent n =>
        rw [server_receive_agent]
        -- an agent writes what it pushes to the game that the current object was told
        have hpushes := congrArg (List.filter (SceneMsg.about g pid))
          (Agent.pushes_receive (w.agent n) n i.clk m (getSceneService g))
        rw [List.filter_filter, SceneMsg.about_and_pushes, Agent.about_pushes _ _ _ fun obj g scene hwar =>
          (isSeat_of_warOf hrun hwar).2] at hpushes
        refine (congrArg (_ ++ ·) hpushes).trans ?_
        -- only the agent of the pid has a current object for it
        by_cases hn : n = getUserAgent pid
        · subst hn
          rw [words_placesOf hrun, ← flatMap_grow, placesOf, placesOf, seated_deliver_ne (by simp)]
          · refine List.flatMap_congr fun x hx => ?_
            have hpid := (mem_placesOf.mp hx).2
            rw [stay, stay, spoken, spoken, hpid.1, hpid.2, observed_deliver _ hmail, List.map_append]
            rfl
          · exact fun x hx => by rw [words_of_dropLast hrun m hx, List.map_nil]
        · -- were there one, this would be the agent of the pid
          have hnone : (w.agent n).playerlist pid = none := by
            rw [← Option.not_isSome_iff_eq_none, Option.isSome_iff_exists]
            rintro ⟨obj, hobj⟩
            obtain ⟨p, hp, -⟩ := (w.agent n).id_eq pid obj hobj
            refine hn (@getUserAgent_of_current _ _ _ _ hrun n pid p.fd ?_).symm
            rw [Agent.current, Agent.getPlayer_eq_some.mpr ⟨hobj, hp⟩]
            rfl
          rw [hnone, Option.toList_none, List.flatMap_nil, List.append_nil,
            hquiet (by simp) (by simpa using hn)]
    | gamegate | gamelogin | scene k | broadcast k | socket k =>
        rw [lettersTo_receive rfl, List.filter_nil, List.append_nil, hquiet (by simp) (by simp)]
  · intro tr (w : World) a x i hrun hw
    have hsame : (placesOf g pid (tr ++ [(w, .act a x i)])).flatMap (stay (tr ++ [(w, .act a x i)]))
        = (placesOf g pid tr).flatMap (stay tr) := by
      rw [placesOf, seated_act, ← placesOf]
      refine List.flatMap_congr fun x hx => ?_
      rw [stay, stay, spoken, spoken, observed_act]
    rw [server.sent_act, List.filter_append, hw, hsame]
    refine (congrArg (_ ++ ·) ?_).trans (List.append_nil _)
    cases a with
    | agent n =>
        have hpushes := congrArg (List.filter (SceneMsg.about g pid))
          (Agent.pushes_act (w.agent n) i.clk x (getSceneService g))
        rw [List.filter_filter, SceneMsg.about_and_pushes] at hpushes
        exact hpushes
    | gamegate | scene k =>
        rw [lettersTo_act rfl]
        rfl
    | gamelogin | sceneMgr | broadcast k | socket k => cases x

/-! ## Inputs, then the leave -/

/-- The inputs that a letter draws from the object `obj` of `pid`. -/
def Agent.hears (s : Agent) (pid : Pid) (obj : ℕ) : AgentMsg → List (Option CtrlInfo)
  | .unpack q (.c2gsCtrlData ctrlData) => if q = pid ∧ s.speaks pid obj then [ctrlData] else []
  | .unpack .. | .start .. | .kick _ | .entered .. => []

/-- The inputs that the agent has handled for the object `obj` of `pid` while this was the player and
knew its game: after its `enterwar` returned, and before its `kick`. -/
def heard (pid : Pid) (obj : ℕ) (tr : List (World × WorldMove)) : List (Option CtrlInfo) :=
  observed (.agent (getUserAgent pid)) (fun _ (s : Agent) m => s.hears pid obj m) tr

omit [Wire] [ServerConfig] in
/-- A letter draws an input or the leave. -/
theorem Agent.words_cases (s : Agent) (pid : Pid) (obj : ℕ) (m : AgentMsg) :
    s.words pid obj m = (s.hears pid obj m).map .input ∨
      m = .kick pid ∧ s.words pid obj m = [.leave] ∧ s.hears pid obj m = [] := by
  cases m with
  | unpack q msg =>
      cases msg with
      | c2gsCtrlData c =>
          refine Or.inl ?_
          rw [words, hears]
          split
          · rfl
          · rfl
      | c2gsLogin | c2gsPing | c2gsRttData | other => exact Or.inl rfl
  | kick q =>
      rw [words]
      split
      · rename_i hspeaks
        rw [hspeaks.1]
        exact Or.inr ⟨rfl, rfl, rfl⟩
      · exact Or.inl rfl
  | start | entered => exact Or.inl rfl

/-- **A session says its inputs, and at the end its leave.** -/
theorem spoken_cases (h : ServerRun tr w) (pid : Pid) (obj : ℕ) :
    spoken pid obj tr = (heard pid obj tr).map .input ∨
      spoken pid obj tr = (heard pid obj tr).map .input ++ [.leave] ∧
        (w.agent (getUserAgent pid)).playerlist pid ≠ some obj ∧
        obj < (w.agent (getUserAgent pid)).objs.length := by
  refine invariant (P := fun tr (w : World) => spoken pid obj tr = (heard pid obj tr).map .input ∨
    spoken pid obj tr = (heard pid obj tr).map .input ++ [.leave] ∧
      (w.agent (getUserAgent pid)).playerlist pid ≠ some obj ∧
      obj < (w.agent (getUserAgent pid)).objs.length) (Or.inl rfl) ?_ ?_ h
  · intro tr (w : World) a i m rest hrun hw hmail
    by_cases ha : a = .agent (getUserAgent pid)
    · subst ha
      rw [spoken, heard, observed_deliver _ hmail, observed_deliver _ hmail, ← spoken, ← heard,
        World.agent, Config.commit_state_same, server_receive_agent]
      rcases hw with hw | ⟨hw, hgone, hlt⟩
      · rcases Agent.words_cases (w.agent (getUserAgent pid)) pid obj m with hm | ⟨rfl, hm, hnone⟩
        · exact Or.inl (by rw [hw, hm, List.map_append])
        · refine Or.inr ⟨by rw [hw, hm, hnone, List.append_nil], ?_, ?_⟩
          · rw [Agent.playerlist_receive]
            simp
          · have hspeaks := Agent.speaks_of_words (m := .kick pid) (by rw [hm]; simp)
            simp only [Agent.speaks, Bool.and_eq_true, decide_eq_true_eq] at hspeaks
            obtain ⟨p, hp, -⟩ := (w.agent (getUserAgent pid)).id_eq pid obj hspeaks.1
            rw [← Agent.length_born, Agent.born_receive, Agent.length_born]
            exact (List.getElem?_eq_some_iff.mp hp).1
      · -- an object that left is never the player again
        have hquiet : (w.agent (getUserAgent pid)).words pid obj m = [] := by
          by_contra hwords
          have hspeaks := Agent.speaks_of_words hwords
          simp only [Agent.speaks, Bool.and_eq_true, decide_eq_true_eq] at hspeaks
          exact hgone hspeaks.1
        have hsilent : (w.agent (getUserAgent pid)).hears pid obj m = [] := by
          rcases Agent.words_cases (w.agent (getUserAgent pid)) pid obj m with hm | ⟨-, -, hnone⟩
          · exact List.map_eq_nil_iff.mp (hm.symm.trans hquiet)
          · exact hnone
        refine Or.inr ⟨?_, ?_, ?_⟩
        · show spoken pid obj tr ++ (w.agent (getUserAgent pid)).words pid obj m
            = (heard pid obj tr ++ (w.agent (getUserAgent pid)).hears pid obj m).map .input ++ [.leave]
          rw [hquiet, hsilent, List.append_nil, List.append_nil, hw]
        · rw [Agent.playerlist_receive]
          cases m with
          | start q mArgs =>
              dsimp only
              split
              · exact fun heq => absurd hlt (Nat.not_lt_of_le (Nat.le_of_eq (Option.some.inj heq)))
              · exact hgone
          | kick q =>
              dsimp only
              split
              · exact fun heq => by cases heq
              · exact hgone
          | unpack | entered => exact hgone
        · refine Nat.lt_of_lt_of_le hlt ?_
          rw [← Agent.length_born, ← Agent.length_born, Agent.born_receive]
          cases m with
          | start => exact List.length_append ▸ Nat.le_add_right _ _
          | kick | unpack | entered => exact le_rfl
    · rw [spoken, heard, observed_deliver_ne _ ha, observed_deliver_ne _ ha, ← spoken, ← heard,
        World.agent, Config.commit_state_ne _ _ _ _ (Ne.symm ha)]
      exact hw
  · intro tr (w : World) a x i hrun hw
    rw [spoken, heard, observed_act, observed_act, ← spoken, ← heard]
    by_cases ha : a = .agent (getUserAgent pid)
    · subst ha
      rw [World.agent, Config.commit_state_same, server_act_agent, Agent.playerlist_act,
        ← Agent.length_born, Agent.born_act, Agent.length_born]
      exact hw
    · rw [World.agent, Config.commit_state_ne _ _ _ _ (Ne.symm ha)]
      exact hw

end Stays

end FrameSync
