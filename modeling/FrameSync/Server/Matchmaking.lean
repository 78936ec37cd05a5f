import FrameSync.Server.SceneMgr

/-! # Matchmaking

The scene manager hands out places. `SceneMgr.seats` names the places a letter hands out, and
`Sound` says what the list of open games has to do with the places handed out so far: an open game
has as many as it counts, from one to four, and a game that is not open has none left or has been
reported over. -/

namespace FrameSync

/-- A place in a game, handed out to a call of `enter_player`. -/
structure Seat where
  /-- The call. -/
  req : EnterRequest
  /-- The game. -/
  gameId : GameId
  deriving Repr, DecidableEq

namespace Seat

variable [ServerConfig]

/-- The `enter_player` for the scene. -/
def enter (x : Seat) : Letter Msg :=
  ⟨.scene (getSceneService x.gameId), .enterPlayer x.gameId x.req.pid x.req.mArgs⟩

/-- The answer to the caller. -/
def answer (x : Seat) : Letter Msg :=
  ⟨.agent x.req.source, .entered x.req.obj x.gameId (getSceneService x.gameId)⟩

end Seat

/-- The letters that put a player into a game. -/
def isEnter : Letter Msg → Bool
  | ⟨.scene _, .enterPlayer ..⟩ => true
  | _ => false

/-- The letters that answer a call of `enter_player`. -/
def isAnswer : Letter Msg → Bool
  | ⟨.agent _, .entered ..⟩ => true
  | _ => false

/-- The game that a letter asks a scene to make. -/
def asksFor : Letter Msg → Option GameId
  | ⟨.scene _, .newGame gameId⟩ => some gameId
  | _ => none

/-- The number of places in a game. -/
def seatCount (gameId : GameId) (seats : List Seat) : ℕ := seats.countP fun x => x.gameId = gameId

@[simp] theorem seatCount_append (gameId : GameId) (xs ys : List Seat) :
    seatCount gameId (xs ++ ys) = seatCount gameId xs + seatCount gameId ys := List.countP_append

theorem seatCount_singleton (gameId : GameId) (x : Seat) :
    seatCount gameId [x] = if x.gameId = gameId then 1 else 0 := by
  simp [seatCount, List.countP_cons]

/-- The calls of `enter_player` among some letters. -/
def MgrMsg.request : MgrMsg → Option EnterRequest
  | .enterPlayer req => some req
  | .newGame _ | .gameOver .. => none

namespace SceneMgr

/-- The places that a letter hands out. -/
def seats (m : SceneMgr) : MgrMsg → List Seat
  | .enterPlayer req => (m.sceneProxyList.take 1).map fun proxy => ⟨req, proxy.gameId⟩
  | .newGame gameId =>
      (m.creating.find? fun c => c.gameId = gameId).toList.map fun c => ⟨c.req, gameId⟩
  | .gameOver .. => []

variable [ServerConfig]

/-- The scene manager after some letters. -/
def served (ms : List MgrMsg) : Outcome SceneMgr (Letter Msg) := Outcome.after receive init ms

/-- The places handed out while it handles them. -/
def placed (ms : List MgrMsg) : List Seat := Outcome.observed receive init seats ms

@[simp] theorem served_snoc_state (ms : List MgrMsg) (msg : MgrMsg) :
    (served (ms ++ [msg])).state = ((served ms).state.receive msg).state :=
  Outcome.after_snoc_state ..

@[simp] theorem served_snoc_sent (ms : List MgrMsg) (msg : MgrMsg) :
    (served (ms ++ [msg])).sent = (served ms).sent ++ ((served ms).state.receive msg).sent :=
  Outcome.after_snoc_sent ..

@[simp] theorem placed_snoc (ms : List MgrMsg) (msg : MgrMsg) :
    placed (ms ++ [msg]) = placed ms ++ (served ms).state.seats msg :=
  Outcome.observed_snoc ..

/-! ## Open games and places -/

/-- The games that are open or being made. -/
def ids (m : SceneMgr) : List GameId :=
  m.sceneProxyList.map Proxy.gameId ++ m.creating.map Creating.gameId

/-- What the state says about the letters handled, the letters sent and the places handed out. -/
structure Sound (ms : List MgrMsg) (m : SceneMgr) (sent : List (Letter Msg)) (xs : List Seat) :
    Prop where
  /-- One `enter_player` for each place. -/
  enters : sent.filter isEnter = xs.map Seat.enter
  /-- One answer for each place. -/
  answers : sent.filter isAnswer = xs.map Seat.answer
  /-- Each call has a place or waits for its game. -/
  requests : (xs.map Seat.req ++ m.creating.map Creating.req).Perm (ms.filterMap MgrMsg.request)
  /-- Games are asked for by number. -/
  asked : sent.filterMap asksFor = List.range' 1 m.lastGameId
  /-- Each game is there once. -/
  nodup : m.ids.Nodup
  /-- Each was asked for. -/
  range : ∀ g ∈ m.ids, 1 ≤ g ∧ g ≤ m.lastGameId
  /-- An open game counts its places, of which there are one to four. -/
  counted : ∀ proxy ∈ m.sceneProxyList, proxy.agent = getSceneService proxy.gameId ∧
    proxy.playercnt = seatCount proxy.gameId xs ∧ 1 ≤ proxy.playercnt ∧ proxy.playercnt ≤ 4
  /-- A game that is being made has no places yet. -/
  fresh : ∀ c ∈ m.creating, seatCount c.gameId xs = 0
  /-- Nor has a game that was not asked for. -/
  unknown : ∀ g, m.lastGameId < g → seatCount g xs = 0
  /-- No game has more than five. -/
  five : ∀ g, seatCount g xs ≤ 5
  /-- A game that is not open has all its places taken or was reported over. -/
  closed : ∀ g, 1 ≤ g → g ≤ m.lastGameId → g ∈ m.ids ∨ seatCount g xs = 5 ∨
    ∃ n, MgrMsg.gameOver n g ∈ ms

namespace Sound

variable {ms : List MgrMsg} {m : SceneMgr} {sent : List (Letter Msg)} {xs : List Seat}

theorem init : Sound [] init [] [] where
  enters := rfl
  answers := rfl
  requests := .refl _
  asked := rfl
  nodup := List.nodup_nil
  range _ h := nomatch h
  counted _ h := nomatch h
  fresh _ h := nomatch h
  unknown _ _ := rfl
  five _ := Nat.zero_le _
  closed _ hpos hle := absurd hle (Nat.not_le_of_lt hpos)

/-- What was handled stays handled. -/
theorem closed_snoc (h : Sound ms m sent xs) (msg : MgrMsg) {g : GameId} (hpos : 1 ≤ g)
    (hle : g ≤ m.lastGameId) : g ∈ m.ids ∨ seatCount g xs = 5 ∨
      ∃ n, MgrMsg.gameOver n g ∈ ms ++ [msg] := by
  rcases h.closed g hpos hle with hids | hfull | ⟨n, hover⟩
  · exact Or.inl hids
  · exact Or.inr (Or.inl hfull)
  · exact Or.inr (Or.inr ⟨n, List.mem_append_left _ hover⟩)

/-- A call joins the first open game. -/
theorem enterPlayer (h : Sound ms m sent xs) (req : EnterRequest) {proxy : Proxy}
    {proxies : List Proxy} (hlist : m.sceneProxyList = proxy :: proxies) :
    Sound (ms ++ [.enterPlayer req])
      { m with
        sceneProxyList :=
          popFull (proxy.playercnt + 1) ({ proxy with playercnt := proxy.playercnt + 1 } :: proxies) }
      (sent ++ join proxy req) (xs ++ [⟨req, proxy.gameId⟩]) := by
  obtain ⟨hagent, hcnt, hpos, hfour⟩ := h.counted proxy (hlist ▸ List.mem_cons_self)
  have hjoin : join proxy req = [Seat.enter ⟨req, proxy.gameId⟩, Seat.answer ⟨req, proxy.gameId⟩] := by
    rw [join, hagent]
    rfl
  have hids : m.ids = proxy.gameId :: (proxies.map Proxy.gameId ++ m.creating.map Creating.gameId) := by
    rw [ids, hlist]
    rfl
  -- the games after the step: the first one goes if it is full
  have hids' : ids { m with
      sceneProxyList :=
        popFull (proxy.playercnt + 1) ({ proxy with playercnt := proxy.playercnt + 1 } :: proxies) }
      = if 5 ≤ proxy.playercnt + 1 then
          proxies.map Proxy.gameId ++ m.creating.map Creating.gameId
        else m.ids := by
    rw [ids, popFull, hids]
    split
    · rfl
    · rfl
  have hnodup := h.nodup
  rw [hids] at hnodup
  have hrest := List.nodup_cons.mp hnodup
  have hsub : ids { m with
      sceneProxyList :=
        popFull (proxy.playercnt + 1) ({ proxy with playercnt := proxy.playercnt + 1 } :: proxies) }
      ⊆ m.ids := by
    rw [hids']
    split
    · rw [hids]
      exact List.subset_cons_self _ _
    · exact List.Subset.refl _
  have hother : ∀ g, g ≠ proxy.gameId →
      seatCount g (xs ++ [⟨req, proxy.gameId⟩]) = seatCount g xs := by
    intro g hg
    rw [seatCount_append, seatCount_singleton, if_neg (Ne.symm hg), Nat.add_zero]
  have hthis : seatCount proxy.gameId (xs ++ [⟨req, proxy.gameId⟩]) = proxy.playercnt + 1 := by
    rw [seatCount_append, seatCount_singleton, if_pos rfl, hcnt]
  refine ⟨?_, ?_, ?_, ?_, ?_, ?_, ?_, ?_, ?_, ?_, ?_⟩
  · rw [hjoin, List.filter_append, h.enters, List.map_append]
    rfl
  · rw [hjoin, List.filter_append, h.answers, List.map_append]
    rfl
  · rw [List.filterMap_append, List.map_append, List.append_assoc]
    refine (List.Perm.append_left _ List.perm_append_comm).trans ?_
    rw [← List.append_assoc]
    exact h.requests.append_right _
  · rw [hjoin, List.filterMap_append, h.asked]
    exact List.append_nil _
  · rw [hids']
    split
    · exact hrest.2
    · exact h.nodup
  · exact fun g hg => h.range g (hsub hg)
  · intro p hp
    have hp' : p = { proxy with playercnt := proxy.playercnt + 1 } ∧ proxy.playercnt + 1 < 5 ∨
        p ∈ proxies := by
      rw [popFull] at hp
      split at hp
      · exact Or.inr hp
      · rename_i hfull
        rcases List.mem_cons.mp hp with hp | hp
        · exact Or.inl ⟨hp, Nat.lt_of_not_le hfull⟩
        · exact Or.inr hp
    rcases hp' with ⟨rfl, hfull⟩ | hp'
    · exact ⟨hagent, hthis.symm, Nat.succ_le_succ (Nat.zero_le _), Nat.le_of_lt_succ hfull⟩
    · have hne : p.gameId ≠ proxy.gameId := fun heq =>
        hrest.1 (List.mem_append_left _ (heq ▸ List.mem_map_of_mem hp'))
      rw [hother _ hne]
      exact h.counted p (hlist ▸ List.mem_cons_of_mem _ hp')
  · intro c hc
    have hne : c.gameId ≠ proxy.gameId := fun heq =>
      hrest.1 (List.mem_append_right _ (heq ▸ List.mem_map_of_mem hc))
    rw [hother _ hne]
    exact h.fresh c hc
  · intro g hg
    have hne : g ≠ proxy.gameId := by
      rintro rfl
      exact absurd (h.range proxy.gameId (hids ▸ List.mem_cons_self)).2 (Nat.not_le_of_lt hg)
    rw [hother _ hne]
    exact h.unknown g hg
  · intro g
    by_cases hg : g = proxy.gameId
    · rw [hg, hthis]
      exact Nat.succ_le_succ hfour
    · rw [hother g hg]
      exact h.five g
  · intro g hg hle
    by_cases heq : g = proxy.gameId
    · subst heq
      rw [hthis, hids']
      split
      · rename_i hfull
        exact Or.inr (Or.inl (Nat.le_antisymm (Nat.succ_le_succ hfour) hfull))
      · rw [hids]
        exact Or.inl List.mem_cons_self
    · rw [hother g heq]
      rcases h.closed_snoc (.enterPlayer req) hg hle with hmem | hrest'
      · refine Or.inl ?_
        rw [hids']
        split
        · rw [hids] at hmem
          exact (List.mem_cons.mp hmem).resolve_left heq
        · exact hmem
      · exact Or.inr hrest'

/-- A call waits for a new game. -/
theorem newProxy (h : Sound ms m sent xs) (req : EnterRequest) :
    Sound (ms ++ [.enterPlayer req]) (m.newProxy req).state (sent ++ (m.newProxy req).sent) xs := by
  -- the number that is awaited has not been used
  have hids : (m.newProxy req).state.ids = m.ids ++ [m.lastGameId + 1] := by
    simp [ids, SceneMgr.newProxy]
  refine ⟨?_, ?_, ?_, ?_, ?_, ?_, h.counted, ?_, ?_, h.five, ?_⟩
  · rw [List.filter_append, h.enters]
    exact List.append_nil _
  · rw [List.filter_append, h.answers]
    exact List.append_nil _
  · rw [List.filterMap_append]
    show (_ ++ (m.creating ++ [_]).map Creating.req).Perm _
    rw [List.map_append, ← List.append_assoc]
    exact h.requests.append_right _
  · rw [List.filterMap_append, h.asked]
    -- `asked`: the numbers are asked for one after the other
    show _ ++ [m.lastGameId + 1] = List.range' 1 (m.lastGameId + 1)
    rw [List.range'_concat, Nat.one_mul, Nat.add_comm 1]
  · rw [hids]
    refine List.nodup_append.mpr ⟨h.nodup, List.nodup_singleton _, fun g hg g' hg' heq => ?_⟩
    rw [List.mem_singleton.mp hg'] at heq
    exact absurd (h.range g hg).2 (heq ▸ Nat.not_succ_le_self _)
  · intro g hg
    rw [hids] at hg
    show 1 ≤ g ∧ g ≤ m.lastGameId + 1
    rcases List.mem_append.mp hg with hg | hg
    · exact ⟨(h.range g hg).1, Nat.le_succ_of_le (h.range g hg).2⟩
    · rw [List.mem_singleton.mp hg]
      exact ⟨Nat.succ_le_succ (Nat.zero_le _), le_rfl⟩
  · -- `fresh`: nobody has a place in a game that was never asked for
    intro c hc
    rcases List.mem_append.mp hc with hc | hc
    · exact h.fresh c hc
    · rw [List.mem_singleton.mp hc]
      exact h.unknown _ (Nat.lt_succ_self _)
  · exact fun g hg => h.unknown g (Nat.lt_of_succ_lt hg)
  · intro g hg hle
    rw [hids]
    by_cases heq : g = m.lastGameId + 1
    · exact Or.inl (heq ▸ List.mem_append_right _ (List.mem_singleton_self _))
    · have hle' : g ≤ m.lastGameId := Nat.le_of_lt_succ (Nat.lt_of_le_of_ne hle heq)
      rcases h.closed_snoc (.enterPlayer req) hg hle' with hmem | hrest
      · exact Or.inl (List.mem_append_left _ hmem)
      · exact Or.inr hrest

/-- A new game is there for the call that waits for it. -/
theorem newGame (h : Sound ms m sent xs) {gameId : GameId} {c : Creating}
    (hfind : m.creating.find? (fun c => c.gameId = gameId) = some c) :
    Sound (ms ++ [.newGame gameId])
      { m with
        sceneProxyList := m.sceneProxyList ++ [proxyOf gameId]
        creating := m.creating.erase c }
      (sent ++ join (proxyOf gameId) c.req) (xs ++ [⟨c.req, gameId⟩]) := by
  have hc : c ∈ m.creating := List.mem_of_find?_eq_some hfind
  obtain rfl : c.gameId = gameId := by simpa using List.find?_some hfind
  -- the game moves from the calls that wait to the list
  have hids : (ids { m with
      sceneProxyList := m.sceneProxyList ++ [proxyOf c.gameId]
      creating := m.creating.erase c }).Perm m.ids := by
    have hperm : (c.gameId :: (m.creating.erase c).map Creating.gameId).Perm
        (m.creating.map Creating.gameId) := ((List.perm_cons_erase hc).map Creating.gameId).symm
    simp only [ids, List.map_append, List.append_assoc]
    exact hperm.append_left _
  have hnodup := List.nodup_append.mp h.nodup
  -- nobody has a place in it yet
  have hzero : seatCount c.gameId xs = 0 := h.fresh c hc
  have hother : ∀ g, g ≠ c.gameId → seatCount g (xs ++ [⟨c.req, c.gameId⟩]) = seatCount g xs := by
    intro g hg
    rw [seatCount_append, seatCount_singleton, if_neg (Ne.symm hg), Nat.add_zero]
  have hthis : seatCount c.gameId (xs ++ [⟨c.req, c.gameId⟩]) = 1 := by
    rw [seatCount_append, seatCount_singleton, if_pos rfl, hzero]
  refine ⟨?_, ?_, ?_, ?_, ?_, ?_, ?_, ?_, ?_, ?_, ?_⟩
  · rw [List.filter_append, h.enters, List.map_append]
    rfl
  · rw [List.filter_append, h.answers, List.map_append]
    rfl
  · -- `requests`: the call that waited is served
    rw [List.filterMap_append, List.map_append, List.append_assoc]
    show (_ ++ (c.req :: (m.creating.erase c).map Creating.req)).Perm (_ ++ [])
    rw [List.append_nil]
    refine List.Perm.trans (List.Perm.append_left _ ?_) h.requests
    exact ((List.perm_cons_erase hc).map Creating.req).symm
  · rw [List.filterMap_append, h.asked]
    exact List.append_nil _
  · exact hids.nodup_iff.mpr h.nodup
  · exact fun g hg => h.range g (hids.subset hg)
  · -- `counted`: the new game has one player, and the other counts are as they were
    intro p hp
    rcases List.mem_append.mp hp with hp | hp
    · have hne : p.gameId ≠ c.gameId :=
        hnodup.2.2 _ (List.mem_map_of_mem hp) _ (List.mem_map_of_mem hc)
      rw [hother _ hne]
      exact h.counted p hp
    · rw [List.mem_singleton.mp hp]
      exact ⟨rfl, hthis.symm, le_rfl, by show 1 ≤ 4; decide⟩
  · -- `fresh`: each call waits for a game of its own
    intro c' hc'
    have hne : c'.gameId ≠ c.gameId := by
      have hcreating := hnodup.2.1
      have hperm := ((List.perm_cons_erase hc).map Creating.gameId).nodup_iff.mp hcreating
      intro heq
      exact (List.nodup_cons.mp hperm).1 (heq ▸ List.mem_map_of_mem hc')
    rw [hother _ hne]
    exact h.fresh c' (List.mem_of_mem_erase hc')
  · intro g hg
    have hne : g ≠ c.gameId := by
      rintro rfl
      exact absurd (h.range _ (List.mem_append_right _ (List.mem_map_of_mem hc))).2
        (Nat.not_le_of_lt hg)
    rw [hother _ hne]
    exact h.unknown g hg
  · intro g
    by_cases hg : g = c.gameId
    · rw [hg, hthis]
      decide
    · rw [hother g hg]
      exact h.five g
  · -- `closed`: a game that is neither listed nor awaited was full or reported over before
    intro g hg hle
    by_cases heq : g = c.gameId
    · exact Or.inl (hids.mem_iff.mpr (heq ▸ List.mem_append_right _ (List.mem_map_of_mem hc)))
    · rw [hother g heq]
      rcases h.closed_snoc (.newGame c.gameId) hg hle with hmem | hrest
      · exact Or.inl (hids.mem_iff.mpr hmem)
      · exact Or.inr hrest

/-- A game is reported over. -/
theorem gameOver (h : Sound ms m sent xs) (n : ℕ) (gameId : GameId) :
    Sound (ms ++ [.gameOver n gameId]) (m.delProxy gameId)
      (sent ++ [⟨.scene n, .gameOver gameId⟩]) xs := by
  -- no number is new
  have hsub : (m.delProxy gameId).ids.Sublist m.ids :=
    (List.Sublist.map Proxy.gameId List.eraseP_sublist).append_right _
  refine ⟨?_, ?_, ?_, ?_, ?_, ?_, ?_, h.fresh, h.unknown, h.five, ?_⟩
  · rw [List.filter_append, h.enters]
    exact List.append_nil _
  · rw [List.filter_append, h.answers]
    exact List.append_nil _
  · rw [List.filterMap_append]
    show (_ ++ m.creating.map Creating.req).Perm (_ ++ [])
    rw [List.append_nil]
    exact h.requests
  · rw [List.filterMap_append, h.asked]
    exact List.append_nil _
  · exact hsub.nodup h.nodup
  · exact fun g hg => h.range g (hsub.subset hg)
  · exact fun p hp => h.counted p (List.mem_of_mem_eraseP hp)
  · intro g hg hle
    rcases h.closed_snoc (.gameOver n gameId) hg hle with hmem | hrest
    · -- `closed`: the game that leaves the list is reported over now
      by_cases heq : g = gameId
      · exact Or.inr (Or.inr ⟨n, heq ▸ List.mem_append_right _ (List.mem_singleton_self _)⟩)
      · refine Or.inl ?_
        rcases List.mem_append.mp hmem with hmem | hmem
        · obtain ⟨p, hp, rfl⟩ := List.mem_map.mp hmem
          refine List.mem_append_left _ (List.mem_map_of_mem ?_)
          exact (List.mem_eraseP_of_neg (by simpa using heq)).mpr hp
        · exact List.mem_append_right _ hmem
    · exact Or.inr hrest

/-- A letter that changes nothing. -/
theorem ignore (h : Sound ms m sent xs) {gameId : GameId} : Sound (ms ++ [.newGame gameId]) m sent xs where
  enters := h.enters
  answers := h.answers
  requests := by
    rw [List.filterMap_append]
    exact (List.append_nil _).symm ▸ h.requests
  asked := h.asked
  nodup := h.nodup
  range := h.range
  counted := h.counted
  fresh := h.fresh
  unknown := h.unknown
  five := h.five
  closed _ hpos hle := h.closed_snoc _ hpos hle

/-- **Every letter keeps the list of open games sound.** -/
theorem receive (h : Sound ms m sent xs) (msg : MgrMsg) :
    Sound (ms ++ [msg]) (m.receive msg).state (sent ++ (m.receive msg).sent) (xs ++ m.seats msg) := by
  cases msg with
  | enterPlayer req =>
      rw [SceneMgr.receive, SceneMgr.enterPlayer, seats]
      split
      · rename_i proxy proxies hlist
        rw [hlist]
        exact h.enterPlayer req hlist
      · rename_i hlist
        rw [hlist]
        exact (List.append_nil xs).symm ▸ h.newProxy req
  | newGame gameId =>
      rw [SceneMgr.receive, SceneMgr.newGame, seats]
      split
      · rename_i c hfind
        rw [hfind]
        exact h.newGame hfind
      · rename_i hfind
        rw [hfind, Outcome.done_sent]
        exact (List.append_nil xs).symm ▸ (List.append_nil sent).symm ▸ h.ignore
  | gameOver n gameId => exact (List.append_nil xs).symm ▸ h.gameOver n gameId

end Sound

/-- **After any letters the list of open games is sound.** -/
theorem sound (ms : List MgrMsg) :
    Sound ms (served ms).state (served ms).sent (placed ms) := by
  induction ms using List.reverseRecOn with
  | nil => exact Sound.init
  | append_singleton ms msg ih =>
      rw [served_snoc_state, served_snoc_sent, placed_snoc]
      exact ih.receive msg

/-! ## Safety -/

/-- The letters that put a player into the game `gameId`. -/
def entersGame (gameId : GameId) : Letter Msg → Bool
  | ⟨.scene _, .enterPlayer g _ _⟩ => g = gameId
  | _ => false

/-- The number of `enter_player` messages for a game. -/
def enterCount (gameId : GameId) (sent : List (Letter Msg)) : ℕ := sent.countP (entersGame gameId)

/-- The games that are open. -/
def openIds (m : SceneMgr) : List GameId := m.sceneProxyList.map Proxy.gameId

theorem Sound.enterCount_eq {ms : List MgrMsg} {m : SceneMgr} {sent : List (Letter Msg)}
    {xs : List Seat} (h : Sound ms m sent xs) (gameId : GameId) :
    enterCount gameId sent = seatCount gameId xs := by
  have hfilter : (sent.filter isEnter).countP (entersGame gameId) = enterCount gameId sent := by
    rw [List.countP_filter, enterCount]
    refine List.countP_congr fun l _ => ?_
    unfold entersGame isEnter
    split
    · simp
    · simp
  rw [← hfilter, h.enters, List.countP_map, seatCount]
  rfl

section Step

variable {m : SceneMgr} {msg : MgrMsg} {g : GameId}

theorem lastGameId_le_receive : m.lastGameId ≤ (m.receive msg).state.lastGameId := by
  cases msg with
  | enterPlayer req =>
      rw [receive, enterPlayer]
      split
      · exact le_rfl
      · exact Nat.le_succ _
  | newGame gameId =>
      rw [receive, newGame]
      split
      · exact le_rfl
      · exact le_rfl
  | gameOver n gameId => exact le_rfl

/-- Only a game that was not asked for before may be one that is being made. -/
theorem mem_creating_of_receive (hle : g ≤ m.lastGameId)
    (hg : g ∈ (m.receive msg).state.creating.map Creating.gameId) :
    g ∈ m.creating.map Creating.gameId := by
  cases msg with
  | enterPlayer req =>
      rw [receive, enterPlayer] at hg
      split at hg
      · exact hg
      · rw [newProxy, Outcome.done_state, List.map_append] at hg
        rcases List.mem_append.mp hg with hg | hg
        · exact hg
        · rw [List.mem_singleton.mp hg] at hle
          exact absurd hle (Nat.not_succ_le_self _)
  | newGame gameId =>
      rw [receive, newGame] at hg
      split at hg
      · exact (List.Sublist.map _ List.erase_sublist).subset hg
      · exact hg
  | gameOver n gameId => exact hg

/-- A game that is open was open or being made before. -/
theorem mem_ids_of_receive (hg : g ∈ (m.receive msg).state.openIds) : g ∈ m.ids := by
  cases msg with
  | enterPlayer req =>
      rw [receive, enterPlayer] at hg
      split at hg
      · rename_i proxy proxies hlist
        refine List.mem_append_left _ ?_
        rw [hlist]
        rw [Outcome.done_state, openIds, popFull] at hg
        split at hg
        · exact List.mem_cons_of_mem _ hg
        · exact hg
      · exact List.mem_append_left _ hg
  | newGame gameId =>
      rw [receive, newGame] at hg
      split at hg
      · rename_i c hfind
        rw [Outcome.done_state, openIds, List.map_append] at hg
        rcases List.mem_append.mp hg with hg | hg
        · exact List.mem_append_left _ hg
        · have hc : c.gameId = gameId := by simpa using List.find?_some hfind
          rw [List.mem_singleton.mp hg]
          exact List.mem_append_right _ (List.mem_map.mpr ⟨c, List.mem_of_find?_eq_some hfind, hc⟩)
      · exact List.mem_append_left _ hg
  | gameOver n gameId =>
      exact List.mem_append_left _ ((List.Sublist.map _ List.eraseP_sublist).subset hg)

omit [ServerConfig] in
/-- Places are in games that are open or being made. -/
theorem mem_ids_of_seats {x : Seat} (hx : x ∈ m.seats msg) : x.gameId ∈ m.ids := by
  cases msg with
  | enterPlayer req =>
      obtain ⟨proxy, hproxy, rfl⟩ := List.mem_map.mp hx
      exact List.mem_append_left _ (List.mem_map_of_mem (List.mem_of_mem_take hproxy))
  | newGame gameId =>
      obtain ⟨c, hc, rfl⟩ := List.mem_map.mp hx
      have hfind := Option.mem_toList.mp hc
      have heq : c.gameId = gameId := by simpa using List.find?_some hfind
      exact List.mem_append_right _ (List.mem_map.mpr ⟨c, List.mem_of_find?_eq_some hfind, heq⟩)
  | gameOver n gameId => cases hx

end Step

/-- `g` was asked for and is neither open nor being made. -/
structure Retired (m : SceneMgr) (g : GameId) : Prop where
  /-- It was asked for. -/
  le : g ≤ m.lastGameId
  /-- It is gone. -/
  notMem : g ∉ m.ids

theorem Retired.receive {m : SceneMgr} {g : GameId} (h : Retired m g) (msg : MgrMsg) :
    Retired (m.receive msg).state g where
  le := h.le.trans lastGameId_le_receive
  notMem hg := by
    rcases List.mem_append.mp hg with hg | hg
    · exact h.notMem (mem_ids_of_receive hg)
    · exact h.notMem (List.mem_append_right _ (mem_creating_of_receive h.le hg))

/-- A retired game stays so and gets no more places. -/
theorem Retired.served {ms : List MgrMsg} {g : GameId} (h : Retired (served ms).state g)
    (ms' : List MgrMsg) : Retired (SceneMgr.served (ms ++ ms')).state g ∧
      seatCount g (placed (ms ++ ms')) = seatCount g (placed ms) := by
  induction ms' using List.reverseRecOn with
  | nil => exact ⟨(List.append_nil ms).symm ▸ h, by rw [List.append_nil]⟩
  | append_singleton ms' msg ih =>
      rw [← List.append_assoc, served_snoc_state, placed_snoc, seatCount_append, ih.2]
      have hnone : seatCount g ((SceneMgr.served (ms ++ ms')).state.seats msg) = 0 := by
        refine List.countP_eq_zero.mpr fun x hx heq => ?_
        exact ih.1.notMem (of_decide_eq_true heq ▸ mem_ids_of_seats hx)
      rw [hnone, Nat.add_zero]
      exact ⟨ih.1.receive msg, rfl⟩

/-- A game that was asked for and is not being made never is again. -/
theorem notMem_creating_served {ms : List MgrMsg} {g : GameId} (hle : g ≤ (served ms).state.lastGameId)
    (hg : g ∉ (served ms).state.creating.map Creating.gameId) (ms' : List MgrMsg) :
    g ≤ (served (ms ++ ms')).state.lastGameId ∧
      g ∉ (served (ms ++ ms')).state.creating.map Creating.gameId := by
  induction ms' using List.reverseRecOn with
  | nil => exact (List.append_nil ms).symm ▸ ⟨hle, hg⟩
  | append_singleton ms' msg ih =>
      rw [← List.append_assoc, served_snoc_state]
      exact ⟨ih.1.trans lastGameId_le_receive, fun h => ih.2 (mem_creating_of_receive ih.1 h)⟩

omit [ServerConfig] in
/-- A game that is reported over is not open. -/
theorem notMem_delProxy {m : SceneMgr} (hnodup : m.openIds.Nodup) {g : GameId} :
    g ∉ (m.delProxy g).openIds := by
  rw [openIds, delProxy]
  rw [openIds] at hnodup
  generalize m.sceneProxyList = proxies at hnodup ⊢
  induction proxies with
  | nil => exact List.not_mem_nil
  | cons proxy proxies ih =>
      obtain ⟨hhead, htail⟩ := List.nodup_cons.mp hnodup
      by_cases heq : proxy.gameId = g
      · rw [List.eraseP_cons_of_pos (by simpa using heq)]
        exact heq ▸ hhead
      · rw [List.eraseP_cons_of_neg (by simpa using heq)]
        exact fun hmem => (List.mem_cons.mp hmem).elim (fun h => heq h.symm) (ih htail)

/-- **Which game leaves the list.** A letter takes an open game out exactly when it hands out the
fifth place of that game or reports it over. -/
theorem leaves_iff (ms : List MgrMsg) (msg : MgrMsg) {g : GameId} (hg : g ∈ (served ms).state.openIds) :
    g ∉ (served (ms ++ [msg])).state.openIds ↔
      seatCount g (placed (ms ++ [msg])) = 5 ∨ ∃ n, msg = .gameOver n g := by
  have h := sound ms
  have h' := sound (ms ++ [msg])
  obtain ⟨proxy, hproxy, rfl⟩ := List.mem_map.mp hg
  constructor
  · rw [served_snoc_state, placed_snoc]
    intro hgone
    cases msg with
    | enterPlayer req =>
        rw [receive, enterPlayer] at hgone
        rw [seats]
        split at hgone
        · rename_i head proxies hlist
          rw [hlist] at hproxy ⊢
          rw [Outcome.done_state, openIds, popFull] at hgone
          -- only the first game of the list gets a place, and it leaves with the fifth
          have hhead := h.counted head (hlist ▸ List.mem_cons_self)
          split at hgone
          · rename_i hfull
            rcases List.mem_cons.mp hproxy with rfl | hproxy
            · refine Or.inl ?_
              show seatCount proxy.gameId (_ ++ [⟨req, proxy.gameId⟩]) = 5
              rw [seatCount_append, seatCount_singleton, if_pos rfl, ← hhead.2.1]
              exact Nat.le_antisymm (Nat.succ_le_succ hhead.2.2.2) hfull
            · exact absurd (List.mem_map_of_mem hproxy) hgone
          · rcases List.mem_cons.mp hproxy with rfl | hproxy
            · exact absurd List.mem_cons_self hgone
            · exact absurd (List.mem_cons_of_mem _ (List.mem_map_of_mem hproxy)) hgone
        · exact absurd (List.mem_map_of_mem hproxy) hgone
    | newGame gameId =>
        rw [receive, newGame] at hgone
        split at hgone
        · -- a new game is put behind the others
          rw [Outcome.done_state, openIds, List.map_append] at hgone
          exact absurd (List.mem_append_left _ (List.mem_map_of_mem hproxy)) hgone
        · exact absurd (List.mem_map_of_mem hproxy) hgone
    | gameOver n gameId =>
        refine Or.inr ⟨n, ?_⟩
        by_contra hne
        -- `del_proxy` takes out the game that is reported, and no other
        have hne' : ¬ proxy.gameId = gameId := fun heq => hne (heq ▸ rfl)
        exact hgone (List.mem_map_of_mem
          ((List.mem_eraseP_of_neg (by simpa using hne')).mpr hproxy))
  · rintro (hfull | ⟨n, rfl⟩) hmem
    · -- a listed game has fewer than five places
      obtain ⟨p, hp, heq⟩ := List.mem_map.mp hmem
      obtain ⟨-, hcnt, -, hle⟩ := h'.counted p hp
      rw [heq, hfull] at hcnt
      exact absurd hcnt (Nat.ne_of_lt (Nat.lt_succ_of_le hle))
    · rw [served_snoc_state] at hmem
      have hnodup := (List.nodup_append.mp h.nodup).1
      exact notMem_delProxy hnodup hmem

/-- **Matchmaking is safe**, whatever the order of the calls, of the answers of the scenes and of the
reports. The games asked for are distinct. Each call that is answered has a place of its own, for
which one `enter_player` was sent, to the game and the scene of the answer; the other calls wait for
their games. No game is sent more than five, and an open game counts those it was sent. A letter
takes a game out of the list exactly when it sends the fifth or reports the game over, and a game that
was taken out is never handed out again. -/
theorem matchmaking_safe (ms : List MgrMsg) :
    ((served ms).sent.filterMap asksFor).Nodup ∧
    ((served ms).sent.filter isEnter = (placed ms).map Seat.enter ∧
      (served ms).sent.filter isAnswer = (placed ms).map Seat.answer ∧
      ((placed ms).map Seat.req ++ (served ms).state.creating.map Creating.req).Perm
        (ms.filterMap MgrMsg.request)) ∧
    (∀ g, enterCount g (served ms).sent ≤ 5) ∧
    (∀ proxy ∈ (served ms).state.sceneProxyList, 1 ≤ proxy.playercnt ∧ proxy.playercnt ≤ 4 ∧
      proxy.playercnt = enterCount proxy.gameId (served ms).sent) ∧
    (∀ msg, ∀ g ∈ (served ms).state.openIds, g ∉ (served (ms ++ [msg])).state.openIds ↔
      enterCount g (served (ms ++ [msg])).sent = 5 ∨ ∃ n, msg = .gameOver n g) ∧
    (∀ ms₁ ms₂, ∀ g ∈ (served ms).state.openIds, g ∉ (served (ms ++ ms₁)).state.openIds →
      g ∉ (served (ms ++ ms₁ ++ ms₂)).state.openIds ∧
      enterCount g (served (ms ++ ms₁ ++ ms₂)).sent = enterCount g (served (ms ++ ms₁)).sent) := by
  have h := sound ms
  refine ⟨?_, ⟨h.enters, h.answers, h.requests⟩, ?_, ?_, ?_, ?_⟩
  · rw [h.asked]
    exact List.nodup_range'
  · intro g
    rw [h.enterCount_eq]
    exact h.five g
  · intro proxy hproxy
    obtain ⟨-, hcnt, hpos, hfour⟩ := h.counted proxy hproxy
    rw [h.enterCount_eq]
    exact ⟨hpos, hfour, hcnt⟩
  · intro msg g hg
    rw [(sound (ms ++ [msg])).enterCount_eq]
    exact leaves_iff ms msg hg
  · intro ms₁ ms₂ g hg hgone
    -- an open game is not one that is being made, so it is retired once it is not open
    have hcreating : g ∉ (served ms).state.creating.map Creating.gameId := fun hmem =>
      (List.nodup_append.mp h.nodup).2.2 g hg g hmem rfl
    obtain ⟨hle, hnot⟩ :=
      notMem_creating_served (h.range g (List.mem_append_left _ hg)).2 hcreating ms₁
    have hretired : Retired (served (ms ++ ms₁)).state g :=
      ⟨hle, fun hmem => (List.mem_append.mp hmem).elim hgone hnot⟩
    obtain ⟨hlater, hcount⟩ := hretired.served ms₂
    rw [(sound (ms ++ ms₁ ++ ms₂)).enterCount_eq, (sound (ms ++ ms₁)).enterCount_eq]
    exact ⟨fun hmem => hlater.notMem (List.mem_append_left _ hmem), hcount⟩

end SceneMgr

end FrameSync
