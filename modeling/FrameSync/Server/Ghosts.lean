import FrameSync.Server.Stays

/-! # Ghosts

Who is in a game once all letters are handled is settled by the stays: the player of the last place of a
pid, unless its session left (`holder_stays`). A session that is kicked before its `enterwar` returned
does not know which game to leave, and its player stays there for good (`kick_leaves_ghost`). When every
kick comes after that, the players of the games are those of the agents (`no_ghosts`). -/

namespace FrameSync

open Behaviour

/-! ## The last stay -/

section LastStay

variable {g : GameId} {pid : Pid}

/-- A letter that pushes nothing about `pid` leaves its place alone. -/
theorem SceneMsg.hold_of_not_about {m : SceneMsg} (h : m.about g pid = false) (cur : Option Fd) :
    m.hold g pid cur = cur := by
  cases m with
  | enterPlayer | leavePlayer => exact if_neg (of_decide_eq_false h)
  | newGame | syncCtrl | syncData | c2gsRttData | gameOver => rfl

/-- Only the letters about `pid` settle its place. -/
theorem holder_filter (ms : List SceneMsg) :
    holder g pid (ms.filter (SceneMsg.about g pid)) = holder g pid ms := by
  induction ms using List.reverseRecOn with
  | nil => rfl
  | append_singleton ms m ih =>
      rw [List.filter_append, holder_snoc]
      cases hm : m.about g pid with
      | true => rw [List.filter_cons_of_pos hm, List.filter_nil, holder_snoc, ih]
      | false =>
          rw [List.filter_cons_of_neg (by simp [hm]), List.filter_nil, List.append_nil, ih,
            SceneMsg.hold_of_not_about hm]

/-- Inputs keep the place. -/
theorem holder_inputs (ms : List SceneMsg) (cs : List (Option CtrlInfo)) :
    holder g pid (ms ++ (cs.map Word.input).map (Word.msg g pid)) = holder g pid ms := by
  induction cs using List.reverseRecOn with
  | nil => rw [List.map_nil, List.map_nil, List.append_nil]
  | append_singleton cs c ih =>
      rw [List.map_append, List.map_append, ← List.append_assoc]
      exact (holder_snoc g pid _ _).trans ih

end LastStay

section Ghosts

variable [Wire] [ServerConfig] {tr : List (World × WorldMove)} {w : World}

/-- **Who has the place of a pid after all stays**: the last session, unless it left. -/
theorem holder_stays (h : ServerRun tr w) (g : GameId) (pid : Pid) :
    holder g pid ((placesOf g pid tr).flatMap (stay tr)) = (placesOf g pid tr).getLast?.bind fun x =>
      if .leave ∈ spoken pid x.req.obj tr then none else some x.req.mArgs.fd := by
  rcases List.eq_nil_or_concat (placesOf g pid tr) with hnil | ⟨l₀, x, hlast⟩
  · rw [hnil]
    rfl
  · rw [List.concat_eq_append] at hlast
    have hx : x ∈ placesOf g pid tr := hlast ▸ List.mem_append_right _ (List.mem_singleton_self _)
    obtain ⟨-, hg, hpid⟩ := mem_placesOf.mp hx
    rw [hlast, List.getLast?_concat, Option.bind_some, List.flatMap_append, List.flatMap_singleton,
      stay, hpid, hg, List.append_cons]
    have henter : holder g pid (l₀.flatMap (stay tr) ++ [x.enterMsg]) = some x.req.mArgs.fd := by
      rw [holder_snoc]
      exact if_pos ⟨hg, hpid⟩
    rcases spoken_cases h pid x.req.obj with hspoken | ⟨hspoken, -, -⟩
    · rw [hspoken, holder_inputs, henter, if_neg (by simp)]
    · rw [hspoken, List.map_append, ← List.append_assoc, if_pos (by simp)]
      refine (holder_snoc g pid _ _).trans ?_
      exact if_pos ⟨rfl, rfl⟩

/-- The caller of a place is told its game. -/
theorem answered (h : ServerRun tr w) {x : Seat} (hx : x ∈ seated tr) :
    .entered x.req.obj x.gameId (getSceneService x.gameId) ∈ server.sent (.agent x.req.source) tr := by
  have hserved := (sceneMgr_served h).2 (.agent x.req.source)
  refine server.sentBy_subset .sceneMgr _ tr ?_
  rw [hserved]
  have hanswer : x.answer ∈ (seated tr).map Seat.answer := List.mem_map_of_mem hx
  rw [← (sound_run h).answers] at hanswer
  exact mem_lettersTo.mpr (List.mem_filter.mp hanswer).1

/-! ## Kicks that come in time -/

omit [Wire] [ServerConfig] in
/-- A session starts when its pid has no player. -/
def startsAlone (w : World) : WorldMove → Bool
  | .deliver (.agent n) _ =>
      match w.mail (.agent n) with
      | .start pid _ :: _ => ((w.agent n).playerlist pid).isNone
      | _ => true
  | _ => true

/-- A player that is kicked knows its game: its `enterwar` has returned. -/
def kicksSettled (w : World) : WorldMove → Bool
  | .deliver (.agent n) _ =>
      match w.mail (.agent n) with
      | .kick pid :: _ => ((w.agent n).playerlist pid).all fun obj => ((w.agent n).warOf obj).isSome
      | _ => true
  | _ => true

/-- While sessions start alone and kicks are settled, each object is the player of its pid or has left
its game. -/
theorem current_or_left (h : ServerRun tr w)
    (hstart : ∀ x ∈ tr, startsAlone x.1 x.2 = true) (hkick : ∀ x ∈ tr, kicksSettled x.1 x.2 = true)
    {pid : Pid} {obj : ℕ} {fd : Fd}
    (hborn : (w.agent (getUserAgent pid)).born[obj]? = some (pid, fd)) :
    (w.agent (getUserAgent pid)).playerlist pid = some obj ∨ .leave ∈ spoken pid obj tr := by
  revert obj fd
  refine invariant_of_moves (C := fun w e => startsAlone w e = true ∧ kicksSettled w e = true)
    (P := fun tr (w : World) => ∀ {obj : ℕ} {fd : Fd},
      (w.agent (getUserAgent pid)).born[obj]? = some (pid, fd) →
      (w.agent (getUserAgent pid)).playerlist pid = some obj ∨ .leave ∈ spoken pid obj tr)
    ?_ ?_ ?_ h fun x hx => ⟨hstart x hx, hkick x hx⟩
  · intro obj fd hborn
    cases hborn
  · intro tr (w : World) a i m rest hrun hw hC hmail obj fd hborn
    by_cases ha : a = .agent (getUserAgent pid)
    · subst ha
      rw [World.agent, Config.commit_state_same, server_receive_agent] at hborn ⊢
      rw [Agent.born_receive] at hborn
      rw [Agent.playerlist_receive, spoken, observed_deliver _ hmail, ← spoken]
      cases m with
      | start q mArgs =>
          dsimp only at hborn ⊢
          by_cases hq : pid = q
          · subst hq
            rw [if_pos rfl]
            have hlt := (List.getElem?_eq_some_iff.mp hborn).1
            rw [List.length_append, List.length_singleton, Agent.length_born] at hlt
            rcases Nat.lt_or_eq_of_le (Nat.le_of_lt_succ hlt) with hlt | rfl
            · -- no player is replaced
              rw [List.getElem?_append_left (by rwa [Agent.length_born])] at hborn
              have halone := hC.1
              simp only [startsAlone, hmail, Option.isNone_iff_eq_none] at halone
              refine Or.inr (List.mem_append_left _ ((hw hborn).resolve_left fun hobj => ?_))
              change (w.agent (getUserAgent pid)).playerlist pid = some obj at hobj
              rw [halone] at hobj
              cases hobj
            · exact Or.inl rfl
          · rw [if_neg hq]
            have hborn' : (w.agent (getUserAgent pid)).born[obj]? = some (pid, fd) := by
              rcases Nat.lt_or_ge obj (w.agent (getUserAgent pid)).born.length with hlt | hge
              · rwa [List.getElem?_append_left hlt] at hborn
              · rw [List.getElem?_append_right hge] at hborn
                rw [List.getElem?_singleton] at hborn
                split at hborn
                · exact absurd (Prod.mk.inj (Option.some.inj hborn)).1.symm hq
                · cases hborn
            exact (hw hborn').imp id (List.mem_append_left _)
      | kick q =>
          dsimp only at hborn ⊢
          rcases hw hborn with hobj | hleft
          · by_cases hq : pid = q
            · subst hq
              refine Or.inr (List.mem_append_right _ ?_)
              have hsettled := hC.2
              simp only [kicksSettled, hmail] at hsettled
              change ((w.agent (getUserAgent pid)).playerlist pid).all _ = true at hsettled
              rw [hobj, Option.all_some] at hsettled
              rw [Agent.words, if_pos ⟨rfl, by rw [Agent.speaks, hobj, hsettled]; simp⟩]
              exact List.mem_singleton_self _
            · exact Or.inl (by rw [if_neg hq]; exact hobj)
          · exact Or.inr (List.mem_append_left _ hleft)
      | unpack | entered => exact (hw hborn).imp id (List.mem_append_left _)
    · rw [World.agent, Config.commit_state_ne _ _ _ _ (Ne.symm ha)] at hborn ⊢
      rw [spoken, observed_deliver_ne _ ha, ← spoken]
      exact hw hborn
  · intro tr (w : World) a x i hrun hw hC obj fd hborn
    rw [spoken, observed_act, ← spoken]
    by_cases ha : a = .agent (getUserAgent pid)
    · subst ha
      rw [World.agent, Config.commit_state_same, server_act_agent] at hborn ⊢
      rw [Agent.born_act] at hborn
      rw [Agent.playerlist_act]
      exact hw hborn
    · rw [World.agent, Config.commit_state_ne _ _ _ _ (Ne.symm ha)] at hborn ⊢
      exact hw hborn

omit [Wire] in
/-- Being in a game is having a socket there. -/
theorem mem_game_iff {g : GameId} {pid : Pid} :
    (∃ game, w.game g = some game ∧ pid ∈ game.war.players) ↔
      (Scene.fdOf (w.state (.scene (getSceneService g))) g pid).isSome = true := by
  rw [Scene.fdOf]
  constructor
  · rintro ⟨game, hgame, hpid⟩
    change (w.state (.scene (getSceneService g)) : Scene) g = some game at hgame
    rw [hgame, Option.bind_some]
    exact FighterWar.fdOf_isSome.mpr hpid
  · intro hfd
    obtain ⟨fd, hfd⟩ := Option.isSome_iff_exists.mp hfd
    obtain ⟨game, hgame, hpid⟩ := Option.bind_eq_some_iff.mp hfd
    exact ⟨game, hgame, FighterWar.fdOf_isSome.mp (by rw [hpid]; rfl)⟩

/-- Once a scene has handled its letters, the last stays settle who is in its games. -/
theorem fdOf_drained (h : ServerRun tr w) {g : GameId}
    (hscene : w.mail (.scene (getSceneService g)) = []) (pid : Pid) :
    Scene.fdOf (w.state (.scene (getSceneService g))) g pid = (placesOf g pid tr).getLast?.bind fun x =>
      if .leave ∈ spoken pid x.req.obj tr then none else some x.req.mArgs.fd := by
  have hlog := handled_append h (.scene (getSceneService g))
  rw [hscene, List.append_nil] at hlog
  rw [fdOf_eq h, hlog, ← holder_filter, sent_stays h, holder_stays h]

/-- **No ghosts.** When sessions start alone and kicks are settled, then once the agent of a pid and the
scene of a game have handled their letters, the pid is in the game exactly if an agent holds its player
and the player's game is this one. -/
theorem no_ghosts (h : ServerRun tr w) (hstart : ∀ x ∈ tr, startsAlone x.1 x.2 = true)
    (hkick : ∀ x ∈ tr, kicksSettled x.1 x.2 = true) (g : GameId) (pid : Pid)
    (hagent : w.mail (.agent (getUserAgent pid)) = [])
    (hscene : w.mail (.scene (getSceneService g)) = []) :
    (∃ game, w.game g = some game ∧ pid ∈ game.war.players) ↔
      ∃ n obj p, (w.agent n).getPlayer pid = some (obj, p) ∧ p.war.map Prod.fst = some g := by
  rw [mem_game_iff, fdOf_drained h hscene]
  constructor
  · intro hlast
    rcases List.eq_nil_or_concat (placesOf g pid tr) with hnil | ⟨l₀, x, hplaces⟩
    · rw [hnil] at hlast
      cases hlast
    · rw [List.concat_eq_append] at hplaces
      obtain ⟨hx, rfl, rfl⟩ := mem_placesOf.mp
        (hplaces ▸ List.mem_append_right l₀ (List.mem_singleton_self x))
      rw [hplaces, List.getLast?_concat, Option.bind_some] at hlast
      have hstays : .leave ∉ spoken x.req.pid x.req.obj tr := by
        intro hleft
        rw [if_pos hleft] at hlast
        cases hlast
      have hsource := source_of_seat h hx
      -- the session did not leave, so its object is the player
      obtain ⟨p, hp, hid, -⟩ := object_of_seat h hx
      have hborn := Agent.born_getElem? hp
      rw [hid, hsource] at hborn
      have hobj := (current_or_left h hstart hkick hborn).resolve_right hstays
      -- and it was told its game
      have hanswer := answered h hx
      have hlog := handled_append h (.agent x.req.source)
      rw [hsource, hagent, List.append_nil, ← hsource] at hlog
      rw [← hlog] at hanswer
      have hwar := warOf_of_entered h hanswer
      rw [hsource] at hp hwar
      have hplayer := Agent.getPlayer_eq_some.mpr ⟨hobj, hp⟩
      rw [Agent.warOf_getPlayer hplayer] at hwar
      exact ⟨_, _, p, hplayer, by rw [hwar]; rfl⟩
  · rintro ⟨n, obj, p, hplayer, hgame⟩
    obtain ⟨⟨g', scene⟩, hwar, rfl⟩ := Option.map_eq_some_iff.mp hgame
    have hn : getUserAgent pid = n := @getUserAgent_of_current _ _ _ _ h n pid p.fd (by
      rw [Agent.current, hplayer]
      rfl)
    subst hn
    have hobj := (Agent.getPlayer_eq_some.mp hplayer).1
    rw [← Agent.warOf_getPlayer hplayer] at hwar
    obtain ⟨x, hx, hsource, rfl, rfl⟩ := (isSeat_of_warOf h hwar).1
    have hpid : x.req.pid = pid := by
      obtain ⟨q, hq, hid, -⟩ := object_of_seat h hx
      rw [hsource, (Agent.getPlayer_eq_some.mp hplayer).2] at hq
      exact hid.symm.trans ((Option.some.inj hq) ▸ Agent.id_getPlayer hplayer)
    have hmem : x ∈ placesOf x.gameId pid tr := mem_placesOf.mpr ⟨hx, rfl, hpid⟩
    rcases List.eq_nil_or_concat (placesOf x.gameId pid tr) with hnil | ⟨l₀, y, hplaces⟩
    · rw [hnil] at hmem
      cases hmem
    · rw [List.concat_eq_append] at hplaces
      -- its place is the last one, and it has not left
      have hxy : x = y := by
        rw [hplaces] at hmem
        refine (List.mem_append.mp hmem).elim (fun hl₀ => ?_) List.mem_singleton.mp
        refine absurd hobj (last_of_playerlist h (g := x.gameId) ?_)
        rwa [hplaces, List.dropLast_concat]
      rw [hplaces, List.getLast?_concat, Option.bind_some, ← hxy, if_neg]
      · rfl
      · intro hleft
        rcases spoken_cases h pid x.req.obj with hspoken | ⟨-, hgone, -⟩
        · rw [hspoken] at hleft
          simp at hleft
        · exact hgone hobj

end Ghosts

section EarlyKick

attribute [local instance] sprotoWire gameConfig

/-- The connection of player 1 is closed while its call of `enter_player` is under way. -/
def earlyKick : List WorldMove :=
  [report .open] ++ logIn 1 1 ++ [next (.agent 1), report (.close 1), next (.agent 1), next .sceneMgr,
    next (.scene 1), next .sceneMgr, next (.scene 1), next (.agent 1)] ++ broadcasts 2 ++
    [next (.broadcast 1)]

/-- **An early kick leaves a ghost.** All letters are handled, no agent holds player 1, and player 1 is in
the first game. -/
theorem kick_leaves_ghost :
    ∃ w : World, runFrom server.step World.init earlyKick = some w ∧
      (∀ x ∈ traceFrom server.step World.init earlyKick, startsAlone x.1 x.2 = true) ∧
      (∀ a ∈ services, w.mail a = []) ∧ w.sceneMgr.creating = [] ∧
      (∃ game, w.game 1 = some game ∧ game.war.players.keys = [1]) ∧
      (w.agent 1).getPlayer 1 = none ∧ (w.agent 2).getPlayer 1 = none := by
  have hrun : (runFrom server.step World.init earlyKick).any (fun (w : World) =>
      services.all (fun a => (w.mail a).isEmpty) && w.sceneMgr.creating.isEmpty &&
        (w.game 1).any (fun game => game.war.players.keys = [1]) &&
        ((w.agent 1).getPlayer 1).isNone && ((w.agent 2).getPlayer 1).isNone) = true := by
    decide +kernel
  obtain ⟨w, hw, hstate⟩ := Option.any_eq_true _ _ |>.mp hrun
  simp only [Bool.and_eq_true, List.all_eq_true, List.isEmpty_iff, Option.any_eq_true,
    decide_eq_true_eq, Option.isNone_iff_eq_none] at hstate
  obtain ⟨⟨⟨⟨hmail, hcreating⟩, hgame⟩, hfirst⟩, hsecond⟩ := hstate
  exact ⟨w, hw, by decide +kernel, hmail, hcreating, hgame, hfirst, hsecond⟩

/-- Player 1 enters the first game, and its connection is closed and opened again. -/
def lateKick : List WorldMove :=
  [report .open] ++ logIn 1 1 ++ firstEnter 1 ++
    [report (.close 1), next (.agent 1), next (.scene 1), report .open] ++ logIn 2 1 ++
    [next (.agent 1), next .sceneMgr, next (.scene 1), next (.agent 1)]

/-- Player 1 is in the first game, where its agent has it. -/
theorem no_ghosts_late :
    ∃ w : World, runFrom server.step World.init lateKick = some w ∧
      ∃ game, w.game 1 = some game ∧ 1 ∈ game.war.players := by
  have hrun : (runFrom server.step World.init lateKick).any (fun (w : World) =>
      (w.mail (.agent (getUserAgent 1))).isEmpty && (w.mail (.scene (getSceneService 1))).isEmpty &&
        ((w.agent 1).getPlayer 1).any (fun x => x.2.war.map Prod.fst = some 1)) = true := by
    decide +kernel
  obtain ⟨w, hw, hstate⟩ := Option.any_eq_true _ _ |>.mp hrun
  simp only [Bool.and_eq_true, List.isEmpty_iff, Option.any_eq_true, decide_eq_true_eq] at hstate
  obtain ⟨⟨hagent, hscene⟩, ⟨obj, p⟩, hp, hgame⟩ := hstate
  have hstart : ∀ x ∈ traceFrom server.step World.init lateKick, startsAlone x.1 x.2 = true := by
    decide +kernel
  have hkick : ∀ x ∈ traceFrom server.step World.init lateKick, kicksSettled x.1 x.2 = true := by
    decide +kernel
  exact ⟨w, hw, (no_ghosts (run_of_runFrom hw) hstart hkick 1 1 hagent hscene).mpr ⟨1, obj, p, hp, hgame⟩⟩

end EarlyKick

end FrameSync
