import FrameSync.Wire.Sproto

/-! # The protocol of the game

The types of `base.sproto`, the messages of `game.sproto`, and `sp_send`: the packed bytes of a
server message, which `string.pack(">s2", ..)` accepts when they are fewer than 65536. The server
is written over any `Wire`; `sprotoWire` is the one of the source. A field that a Lua table may
leave out is an `Option`. -/

namespace FrameSync

open Sproto

/-- A player id, chosen by the client that logs in. -/
abbrev Pid := ℤ

/-! ## `base.sproto` -/

/-- `.Pos` -/
structure Pos where
  /-- Horizontal position. -/
  x : Option ℤ := none
  /-- Vertical position. -/
  z : Option ℤ := none
  deriving Repr, DecidableEq

/-- `.Color` -/
structure Color where
  /-- Red. -/
  r : Option ℤ := none
  /-- Green. -/
  g : Option ℤ := none
  /-- Blue. -/
  b : Option ℤ := none
  deriving Repr, DecidableEq

/-- `.ActionEnter` -/
structure ActionEnter where
  /-- The player's name. -/
  name : Option Bytes := none
  /-- The player's colour. -/
  color : Option Color := none
  /-- Where the player starts. -/
  pos : Option Pos := none
  deriving Repr, DecidableEq

/-- `.ActionAttack` -/
structure ActionAttack where
  /-- 1 start, 2 stop. -/
  status : Option ℤ := none
  deriving Repr, DecidableEq

/-- `.ActionMove` -/
structure ActionMove where
  /-- 1 up, 2 down, 3 left, 4 right. -/
  dir : Option ℤ := none
  /-- 1 start, 2 stop. -/
  status : Option ℤ := none
  deriving Repr, DecidableEq

/-- `.CtrlInfo`: one entry of a frame. -/
structure CtrlInfo where
  /-- The player the entry is about. -/
  pid : Option Pid := none
  /-- One of `actionEnter`, `actionLeave`, `actionAttack`, `actionMove`. -/
  action : Option ℤ := none
  /-- Read for `actionEnter`. -/
  enterInfo : Option ActionEnter := none
  /-- Read for `actionAttack`. -/
  attackInfo : Option ActionAttack := none
  /-- Read for `actionMove`. -/
  moveInfo : Option ActionMove := none
  deriving Repr, DecidableEq

/-- `.FrameInfo`: one frame, as the server makes it. -/
structure FrameInfo where
  /-- Counted from 1 in each game. -/
  frameNumber : ℕ
  /-- The entries collected since the frame before. -/
  ctrlData : List CtrlInfo
  /-- `Skynet.now()` when the frame was made, in hundredths of a second. -/
  timestamp : ℕ
  deriving Repr, DecidableEq

/-- `ACTION_ENTER` -/
def actionEnter : ℤ := 1
/-- `ACTION_LEAVE` -/
def actionLeave : ℤ := 2
/-- `ACTION_ATTACK` -/
def actionAttack : ℤ := 3
/-- `ACTION_MOVE` -/
def actionMove : ℤ := 4

/-! ## `game.sproto` -/

/-- The requests a server sends. -/
inductive ServerMsg
  /-- `gs2c_loginsuc` -/
  | gs2cLoginsuc (gameId rndseed timestamp frameCacheNum initTime : ℕ)
  /-- `gs2c_frame_cache_data` -/
  | gs2cFrameCacheData (frameCache : List FrameInfo)
  /-- `gs2c_ping` -/
  | gs2cPing (session timestamp : ℕ) (isResp : Bool)
  /-- `gs2c_frame_data` -/
  | gs2cFrameData (frameData : FrameInfo)
  /-- `gs2c_rtt_data` -/
  | gs2cRttData (avgRtt minRtt maxRtt curRtt : ℤ)
  deriving Repr, DecidableEq

/-- The requests a client sends. -/
inductive ClientMsg
  /-- `c2gs_login` -/
  | c2gsLogin (pid : Option Pid)
  /-- `c2gs_ping` -/
  | c2gsPing (session : Option ℤ)
  /-- `c2gs_ctrl_data` -/
  | c2gsCtrlData (ctrlData : Option CtrlInfo)
  /-- `c2gs_rtt_data` -/
  | c2gsRttData (avgRtt minRtt maxRtt curRtt : Option ℤ)
  /-- Bytes that do not decode, or any other request: no handler acts on it. -/
  | other
  deriving Repr, DecidableEq

/-- A message that carries game data: the login answer or frames. -/
def ServerMsg.isGameData : ServerMsg → Bool
  | .gs2cLoginsuc .. | .gs2cFrameCacheData _ | .gs2cFrameData _ => true
  | .gs2cPing .. | .gs2cRttData .. => false

/-! ## Encoding -/

/-- Encode a `Pos`. -/
def Pos.encode (p : Pos) : Bytes :=
  encodeStruct [(0, p.x.map encodeInteger), (1, p.z.map encodeInteger)]

/-- Encode a `Color`. -/
def Color.encode (c : Color) : Bytes :=
  encodeStruct [(0, c.r.map encodeInteger), (1, c.g.map encodeInteger), (2, c.b.map encodeInteger)]

/-- Encode an `ActionEnter`. -/
def ActionEnter.encode (a : ActionEnter) : Bytes :=
  encodeStruct [(0, a.name.map encodeObject), (1, a.color.map fun c => encodeObject c.encode),
    (2, a.pos.map fun p => encodeObject p.encode)]

/-- Encode an `ActionAttack`. -/
def ActionAttack.encode (a : ActionAttack) : Bytes := encodeStruct [(0, a.status.map encodeInteger)]

/-- Encode an `ActionMove`. -/
def ActionMove.encode (a : ActionMove) : Bytes :=
  encodeStruct [(0, a.dir.map encodeInteger), (1, a.status.map encodeInteger)]

/-- Encode a `CtrlInfo`. -/
def CtrlInfo.encode (c : CtrlInfo) : Bytes :=
  encodeStruct [(0, c.pid.map encodeInteger), (1, c.action.map encodeInteger),
    (2, c.enterInfo.map fun a => encodeObject a.encode),
    (3, c.attackInfo.map fun a => encodeObject a.encode),
    (4, c.moveInfo.map fun a => encodeObject a.encode)]

/-- Encode a `FrameInfo`. -/
def FrameInfo.encode (f : FrameInfo) : Bytes :=
  encodeStruct [(0, some (encodeInteger f.frameNumber)),
    (1, some (encodeArray (f.ctrlData.map CtrlInfo.encode))),
    (2, some (encodeInteger f.timestamp))]

/-- The protocol number of a server message. -/
def ServerMsg.tag : ServerMsg → ℕ
  | .gs2cLoginsuc .. => 101
  | .gs2cFrameCacheData _ => 102
  | .gs2cPing .. => 201
  | .gs2cFrameData _ => 204
  | .gs2cRttData .. => 206

/-- The encoded request body of a server message. -/
def ServerMsg.encode : ServerMsg → Bytes
  | .gs2cLoginsuc gameId rndseed timestamp frameCacheNum initTime =>
      encodeStruct [(0, some (encodeInteger gameId)), (1, some (encodeInteger rndseed)),
        (2, some (encodeInteger timestamp)), (3, some (encodeInteger frameCacheNum)),
        (4, some (encodeInteger initTime))]
  | .gs2cFrameCacheData frameCache =>
      encodeStruct [(0, some (encodeArray (frameCache.map FrameInfo.encode)))]
  | .gs2cPing session timestamp isResp =>
      encodeStruct [(0, some (encodeInteger session)), (1, some (encodeInteger timestamp)),
        (2, some (encodeBoolean isResp))]
  | .gs2cFrameData frameData => encodeStruct [(0, some (encodeObject frameData.encode))]
  | .gs2cRttData avgRtt minRtt maxRtt curRtt =>
      encodeStruct [(0, some (encodeInteger avgRtt)), (1, some (encodeInteger minRtt)),
        (2, some (encodeInteger maxRtt)), (3, some (encodeInteger curRtt))]

/-- `sp_send(proto, param, nil, ud)`: the `BasePackage` header with the send time `sec` (in
seconds) in its `Ud`, then the body, packed. -/
def spSend (m : ServerMsg) (sec : ℕ) : Bytes :=
  let ud := encodeStruct [(0, none), (1, none), (2, some (encodeInteger sec))]
  let header := encodeStruct [(0, some (encodeInteger m.tag)), (1, none), (2, some (encodeObject ud))]
  spack (header ++ m.encode)

/-- A wire format, as far as the senders see it: whether `string.pack(">s2", sp_send(..))` accepts
a message sent at the time `sec`, or raises. What a server does depends on its wire through this
test alone. -/
class Wire where
  /-- The message packs. -/
  packs : ServerMsg → ℕ → Bool

/-- The wire of the source: the length of the packed message fits in two bytes. (The encoder's own
limit of 16 MB, `ENCODE_MAXSIZE`, is only passed by a message that is too long packed, too.) -/
@[reducible] def sprotoWire : Wire := ⟨fun m sec => (spSend m sec).length < 65536⟩

/-- The name in an entry's `enter_info` is in the encoded entry. -/
theorem name_infix_encode {c : CtrlInfo} {a : ActionEnter} {name : Bytes} (hc : c.enterInfo = some a)
    (ha : a.name = some name) : name <:+: c.encode := by
  have hname : name <:+: a.encode :=
    (infix_encodeObject name).trans (bytes_infix_encodeStruct (t := 0) (by simp [ha]))
  have henter : a.encode <:+: c.encode :=
    (infix_encodeObject a.encode).trans (bytes_infix_encodeStruct (t := 2) (by simp [hc]))
  exact hname.trans henter

/-- The entries of a frame are all in the packed frame message. -/
theorem sum_notzero_le_spSend (f : FrameInfo) (sec : ℕ) :
    (f.ctrlData.map fun c => notzero c.encode).sum ≤ (spSend (.gs2cFrameData f) sec).length := by
  have harray : (encodeArray (f.ctrlData.map CtrlInfo.encode)).bytes <:+: f.encode :=
    bytes_infix_encodeStruct (t := 1) (by simp)
  have hframe : f.encode <:+: (ServerMsg.gs2cFrameData f).encode :=
    (infix_encodeObject f.encode).trans (bytes_infix_encodeStruct (t := 0) (by simp))
  have hsum := sum_notzero_le_encodeArray (f.ctrlData.map CtrlInfo.encode)
  rw [List.map_map] at hsum
  refine hsum.trans ((notzero_le_of_isInfix (harray.trans hframe)).trans ?_)
  refine le_trans ?_ (notzero_le_length_spack _)
  rw [notzero_append]
  exact Nat.le_add_left _ _

/-- **A frame whose entries hold enough nonzero bytes does not pack.** -/
theorem not_packs_of_sum_notzero {f : FrameInfo}
    (h : 65536 ≤ (f.ctrlData.map fun c => notzero c.encode).sum) (sec : ℕ) :
    sprotoWire.packs (.gs2cFrameData f) sec = false := by
  have hlen := sum_notzero_le_spSend f sec
  refine decide_eq_false fun hlt => ?_
  omega

/-- The entries of a frame are all in its encoding. -/
theorem sum_notzero_le_encode (f : FrameInfo) :
    (f.ctrlData.map fun c => notzero c.encode).sum ≤ notzero f.encode := by
  have harray : (encodeArray (f.ctrlData.map CtrlInfo.encode)).bytes <:+: f.encode :=
    bytes_infix_encodeStruct (t := 1) (by simp)
  have hsum := sum_notzero_le_encodeArray (f.ctrlData.map CtrlInfo.encode)
  rw [List.map_map] at hsum
  exact hsum.trans (notzero_le_of_isInfix harray)

/-- Cached frames are all in the packed message. -/
theorem sum_notzero_le_spSend_cache (fs : List FrameInfo) (sec : ℕ) :
    (fs.map fun f => notzero f.encode).sum ≤ (spSend (.gs2cFrameCacheData fs) sec).length := by
  have hcache : (encodeArray (fs.map FrameInfo.encode)).bytes
      <:+: (ServerMsg.gs2cFrameCacheData fs).encode := bytes_infix_encodeStruct (t := 0) (by simp)
  have hsum := sum_notzero_le_encodeArray (fs.map FrameInfo.encode)
  rw [List.map_map] at hsum
  refine hsum.trans ((notzero_le_of_isInfix hcache).trans ?_)
  refine le_trans ?_ (notzero_le_length_spack _)
  rw [notzero_append]
  exact Nat.le_add_left _ _

/-- A message is packed behind a short header. -/
theorem spSend_eq (m : ServerMsg) (sec : ℕ) :
    ∃ header : Bytes, header.length ≤ 80 ∧ spSend m sec = spack (header ++ m.encode) := by
  refine ⟨_, ?_, rfl⟩
  have hud := length_encodeStruct_le [(0, none), (1, none), (2, some (encodeInteger sec))]
  have hsec := length_bytes_encodeInteger_le sec
  have htag := length_bytes_encodeInteger_le m.tag
  refine (length_encodeStruct_le _).trans ?_
  rw [dataLength_none, dataLength_none, dataLength_some, dataLength_nil] at hud
  rw [dataLength_some, dataLength_none, dataLength_some, dataLength_nil, length_bytes_encodeObject]
  simp only [List.length_cons, List.length_nil] at hud ⊢
  omega

/-- **A message with a body of at most 52000 bytes packs.** -/
theorem packs_of_length {m : ServerMsg} (h : m.encode.length ≤ 52000) (sec : ℕ) :
    sprotoWire.packs m sec = true := by
  obtain ⟨header, hheader, heq⟩ := spSend_eq m sec
  have hlen := length_spack_le (header ++ m.encode)
  rw [List.length_append] at hlen
  have hshort : (spSend m sec).length < 65536 := by
    rw [heq]
    omega
  exact decide_eq_true hshort

/-- **The login answer packs.** -/
theorem packs_gs2cLoginsuc (gameId rndseed timestamp frameCacheNum initTime sec : ℕ) :
    sprotoWire.packs (.gs2cLoginsuc gameId rndseed timestamp frameCacheNum initTime) sec = true := by
  refine packs_of_length ?_ sec
  have hgame := length_bytes_encodeInteger_le gameId
  have hseed := length_bytes_encodeInteger_le rndseed
  have htime := length_bytes_encodeInteger_le timestamp
  have hnum := length_bytes_encodeInteger_le frameCacheNum
  have hinit := length_bytes_encodeInteger_le initTime
  rw [ServerMsg.encode]
  refine (length_encodeStruct_le _).trans ?_
  rw [dataLength_some, dataLength_some, dataLength_some, dataLength_some, dataLength_some,
    dataLength_nil]
  simp only [List.length_cons, List.length_nil]
  omega

/-- **A ping packs.** -/
theorem packs_gs2cPing (session timestamp : ℕ) (isResp : Bool) (sec : ℕ) :
    sprotoWire.packs (.gs2cPing session timestamp isResp) sec = true := by
  refine packs_of_length ?_ sec
  have hsession := length_bytes_encodeInteger_le session
  have htime := length_bytes_encodeInteger_le timestamp
  have hresp : (encodeBoolean isResp).bytes.length = 0 := rfl
  rw [ServerMsg.encode]
  refine (length_encodeStruct_le _).trans ?_
  rw [dataLength_some, dataLength_some, dataLength_some, dataLength_nil]
  simp only [List.length_cons, List.length_nil]
  omega

/-! ## How long a frame message is -/

theorem length_encode_pos_le (p : Pos) : p.encode.length ≤ 34 := by
  have hx := dataLength_integer_le p.x 0 [(1, p.z.map encodeInteger)]
  have hz := dataLength_integer_le p.z 1 []
  rw [dataLength_nil] at hz
  refine (length_encodeStruct_le _).trans ?_
  simp only [List.length_cons, List.length_nil]
  omega

theorem length_encode_color_le (c : Color) : c.encode.length ≤ 50 := by
  have hr := dataLength_integer_le c.r 0 [(1, c.g.map encodeInteger), (2, c.b.map encodeInteger)]
  have hg := dataLength_integer_le c.g 1 [(2, c.b.map encodeInteger)]
  have hb := dataLength_integer_le c.b 2 []
  rw [dataLength_nil] at hb
  refine (length_encodeStruct_le _).trans ?_
  simp only [List.length_cons, List.length_nil]
  omega

theorem length_encode_attack_le (a : ActionAttack) : a.encode.length ≤ 18 := by
  have hstatus := dataLength_integer_le a.status 0 []
  rw [dataLength_nil] at hstatus
  refine (length_encodeStruct_le _).trans ?_
  simp only [List.length_cons, List.length_nil]
  omega

theorem length_encode_move_le (a : ActionMove) : a.encode.length ≤ 34 := by
  have hdir := dataLength_integer_le a.dir 0 [(1, a.status.map encodeInteger)]
  have hstatus := dataLength_integer_le a.status 1 []
  rw [dataLength_nil] at hstatus
  refine (length_encodeStruct_le _).trans ?_
  simp only [List.length_cons, List.length_nil]
  omega

/-- The length of the name. -/
def ActionEnter.nameLength (a : ActionEnter) : ℕ := a.name.elim 0 List.length

theorem length_encode_enter_le (a : ActionEnter) : a.encode.length ≤ 110 + a.nameLength := by
  have hname : dataLength [(0, a.name.map encodeObject), (1, a.color.map fun c => encodeObject c.encode),
      (2, a.pos.map fun p => encodeObject p.encode)] ≤ (4 + a.nameLength)
      + dataLength [(1, a.color.map fun c => encodeObject c.encode),
        (2, a.pos.map fun p => encodeObject p.encode)] := by
    refine dataLength_map_le (fun name h => ?_) _ _
    rw [length_bytes_encodeObject, ActionEnter.nameLength, h]
    exact le_rfl
  have hcolor : dataLength [(1, a.color.map fun c => encodeObject c.encode),
      (2, a.pos.map fun p => encodeObject p.encode)] ≤ (4 + 50)
      + dataLength [(2, a.pos.map fun p => encodeObject p.encode)] := by
    refine dataLength_map_le (fun c _ => ?_) _ _
    rw [length_bytes_encodeObject]
    exact Nat.add_le_add_left (length_encode_color_le c) 4
  have hpos : dataLength [(2, a.pos.map fun p => encodeObject p.encode)] ≤ (4 + 34) + dataLength [] := by
    refine dataLength_map_le (fun p _ => ?_) _ _
    rw [length_bytes_encodeObject]
    exact Nat.add_le_add_left (length_encode_pos_le p) 4
  rw [dataLength_nil] at hpos
  refine (length_encodeStruct_le _).trans ?_
  simp only [List.length_cons, List.length_nil]
  omega

/-- The length of the name in an entry. -/
def CtrlInfo.nameLength (c : CtrlInfo) : ℕ := c.enterInfo.elim 0 ActionEnter.nameLength

theorem length_encode_ctrlInfo_le (c : CtrlInfo) : c.encode.length ≤ 220 + c.nameLength := by
  have hmove : dataLength [(4, c.moveInfo.map fun a => encodeObject a.encode)] ≤ (4 + 34) + dataLength [] := by
    refine dataLength_map_le (fun a _ => ?_) _ _
    rw [length_bytes_encodeObject]
    exact Nat.add_le_add_left (length_encode_move_le a) 4
  have hattack : dataLength [(3, c.attackInfo.map fun a => encodeObject a.encode),
      (4, c.moveInfo.map fun a => encodeObject a.encode)]
      ≤ (4 + 18) + dataLength [(4, c.moveInfo.map fun a => encodeObject a.encode)] := by
    refine dataLength_map_le (fun a _ => ?_) _ _
    rw [length_bytes_encodeObject]
    exact Nat.add_le_add_left (length_encode_attack_le a) 4
  have henter : dataLength [(2, c.enterInfo.map fun a => encodeObject a.encode),
      (3, c.attackInfo.map fun a => encodeObject a.encode),
      (4, c.moveInfo.map fun a => encodeObject a.encode)] ≤ (4 + (110 + c.nameLength))
      + dataLength [(3, c.attackInfo.map fun a => encodeObject a.encode),
        (4, c.moveInfo.map fun a => encodeObject a.encode)] := by
    refine dataLength_map_le (fun a h => ?_) _ _
    rw [length_bytes_encodeObject, CtrlInfo.nameLength, h]
    exact Nat.add_le_add_left (length_encode_enter_le a) 4
  have hpid := dataLength_integer_le c.pid 0 [(1, c.action.map encodeInteger),
    (2, c.enterInfo.map fun a => encodeObject a.encode),
    (3, c.attackInfo.map fun a => encodeObject a.encode),
    (4, c.moveInfo.map fun a => encodeObject a.encode)]
  have haction := dataLength_integer_le c.action 1 [(2, c.enterInfo.map fun a => encodeObject a.encode),
    (3, c.attackInfo.map fun a => encodeObject a.encode),
    (4, c.moveInfo.map fun a => encodeObject a.encode)]
  rw [dataLength_nil] at hmove
  refine (length_encodeStruct_le _).trans ?_
  simp only [List.length_cons, List.length_nil]
  omega

/-- **A frame whose names are short packs.** -/
theorem packs_of_nameLength {f : FrameInfo}
    (h : (f.ctrlData.map fun c => 224 + c.nameLength).sum ≤ 51000) (sec : ℕ) :
    sprotoWire.packs (.gs2cFrameData f) sec = true := by
  refine packs_of_length ?_ sec
  have hnumber := length_bytes_encodeInteger_le f.frameNumber
  have htime := length_bytes_encodeInteger_le f.timestamp
  have hentries : ∀ cs : List CtrlInfo, (cs.map fun c => 4 + c.encode.length).sum
      ≤ (cs.map fun c => 224 + c.nameLength).sum := by
    intro cs
    induction cs with
    | nil => exact le_rfl
    | cons c cs ih =>
        have hc := length_encode_ctrlInfo_le c
        rw [List.map_cons, List.map_cons, List.sum_cons, List.sum_cons]
        exact Nat.add_le_add (by omega) ih
  have hframe : f.encode.length ≤ 60 + (f.ctrlData.map fun c => 4 + c.encode.length).sum := by
    refine (length_encodeStruct_le _).trans ?_
    rw [dataLength_some, dataLength_some, dataLength_some, dataLength_nil, length_bytes_encodeArray,
      List.map_map]
    simp only [List.length_cons, List.length_nil, Function.comp_def]
    omega
  have hall := hentries f.ctrlData
  rw [ServerMsg.encode]
  refine (length_encodeStruct_le _).trans ?_
  rw [dataLength_some, dataLength_nil, length_bytes_encodeObject]
  simp only [List.length_cons, List.length_nil]
  omega

end FrameSync
