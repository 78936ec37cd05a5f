import FrameSync.Wire.Packing
import FrameSync.Wire.Protocol
import FrameSync.Wire.Schema

/-! # Requests

The types and protocols of `base.sproto` and `game.sproto` as `sproto_create` loads them, and both ends of a
request: `host:attach` and `host:dispatch` of `sproto.lua` on the server, `SprotoRpc` of `sproto.py` on the
client. A request that one end makes is read by the other as it was made (`dispatch_request`), and whatever
a client sends, the server reads nothing but the bytes of it (`hostDispatch_inBounds`). -/

namespace FrameSync

open Sproto

/-! ## The schema -/

namespace Game

/-- Tags are counted up from 0 in all these types. -/
def fields (kinds : List (Kind × Bool)) : List FieldDesc := kinds.mapIdx fun tag k => ⟨tag, k.1, k.2⟩

theorem ascending_fields (kinds : List (Kind × Bool)) : (fields kinds).Pairwise fun f g => f.tag < g.tag := by
  rw [List.pairwise_iff_getElem]
  intro i j hi hj hij
  simp only [fields, List.getElem_mapIdx]
  exact hij

/-- `.Ud` -/
abbrev ud : ℕ := 0
/-- `.BasePackage` -/
abbrev basePackage : ℕ := 1
/-- `.Pos` -/
abbrev pos : ℕ := 2
/-- `.Color` -/
abbrev color : ℕ := 3
/-- `.ActionEnter` -/
abbrev enter : ℕ := 4
/-- `.ActionAttack` -/
abbrev attack : ℕ := 5
/-- `.ActionMove` -/
abbrev move : ℕ := 6
/-- `.CtrlInfo` -/
abbrev ctrlInfo : ℕ := 7
/-- `.FrameInfo` -/
abbrev frameInfo : ℕ := 8

/-- The kinds of the fields of each type. The types from 9 on are the requests, by ascending tag. -/
def kinds : ℕ → List (Kind × Bool)
  | 0 => [(.integer, false), (.string, false), (.integer, false)]
  | 1 => [(.integer, false), (.integer, false), (.struct ud, false)]
  | 2 => [(.integer, false), (.integer, false)]
  | 3 => [(.integer, false), (.integer, false), (.integer, false)]
  | 4 => [(.string, false), (.struct color, false), (.struct pos, false)]
  | 5 => [(.integer, false)]
  | 6 => [(.integer, false), (.integer, false)]
  | 7 => [(.integer, false), (.integer, false), (.struct enter, false), (.struct attack, false),
      (.struct move, false)]
  | 8 => [(.integer, false), (.struct ctrlInfo, true), (.integer, false)]
  | 9 => [(.integer, false)]
  | 10 => [(.integer, false), (.integer, false), (.integer, false), (.integer, false), (.integer, false)]
  | 11 => [(.struct frameInfo, true)]
  | 12 => [(.integer, false), (.integer, false), (.boolean, false)]
  | 13 => [(.integer, false)]
  | 14 => [(.struct ctrlInfo, false)]
  | 15 => [(.struct frameInfo, false)]
  | 16 => [(.integer, false), (.integer, false), (.integer, false), (.integer, false)]
  | 17 => [(.integer, false), (.integer, false), (.integer, false), (.integer, false)]
  | _ => []

theorem length_kinds_le (t : ℕ) : (kinds t).length ≤ 5 := by
  unfold kinds
  split <;> decide

/-- The types of `sproto.spb`. -/
def schema : Schema := fun t =>
  { fields := fields (kinds t)
    ascending := ascending_fields (kinds t)
    small := by
      intro f hf
      obtain ⟨i, hi, rfl⟩ := List.mem_mapIdx.mp hf
      have hle := length_kinds_le t
      exact Nat.lt_of_lt_of_le hi (hle.trans (by decide)) }

/-- `struct protocol`. No protocol of the game has a response. -/
structure Proto where
  /-- The number of the protocol. -/
  tag : ℕ
  /-- Its name. -/
  name : String
  /-- The type of the request. -/
  request : ℕ
  deriving Repr, DecidableEq

/-- The protocols of `sproto.spb`, by ascending tag. -/
def protocols : List Proto :=
  [⟨100, "c2gs_login", 9⟩, ⟨101, "gs2c_loginsuc", 10⟩, ⟨102, "gs2c_frame_cache_data", 11⟩,
    ⟨201, "gs2c_ping", 12⟩, ⟨202, "c2gs_ping", 13⟩, ⟨203, "c2gs_ctrl_data", 14⟩,
    ⟨204, "gs2c_frame_data", 15⟩, ⟨205, "c2gs_rtt_data", 16⟩,
    ⟨206, "gs2c_rtt_data", 17⟩]

/-- `query_proto` -/
def queryProto (tag : ℤ) : Option Proto := if tag < 0 then none else Search.search Proto.tag protocols tag.toNat

/-- `sproto_prototag`, with the request of the protocol. -/
def protoOfName (name : String) : Option Proto := protocols.find? fun p => p.name == name

theorem queryProto_eq_some {tag : ℤ} {p : Proto} :
    queryProto tag = some p ↔ p ∈ protocols ∧ (p.tag : ℤ) = tag := by
  have hsorted : protocols.Pairwise fun p q : Proto => p.tag < q.tag := by decide
  rw [queryProto]
  split_ifs with hneg
  · refine iff_of_false (fun h => by cases h) ?_
    rintro ⟨-, rfl⟩
    omega
  · rw [Search.search_eq_some hsorted]
    refine and_congr_right fun _ => ?_
    omega

/-! ## Making a request -/

/-- `core.encode`, and `SprotoObj.encode`: nothing has more than `ENCODE_DEEPLEVEL` levels. -/
abbrev encode (t : ℕ) (table : List (ℕ × Value)) : Option Bytes := Sproto.encode schema 64 t table

/-- `core.decode`, and `SprotoObj.decode` -/
abbrev decode (t : ℕ) (src : Bytes) : Decoded := Sproto.decode schema 64 t src src.length

/-- The header of a request without a session: `type` and `ud.timestamp`. -/
def headerOf (p : Proto) (timestamp : ℤ) : List (ℕ × Value) :=
  [(0, .integer p.tag), (2, .struct [(2, .integer timestamp)])]

/-- A request before it is packed. -/
def requestBytes (name : String) (args : List (ℕ × Value)) (timestamp : ℤ) : Option Bytes := do
  let p ← protoOfName name
  let header ← encode basePackage (headerOf p timestamp)
  let content ← encode p.request args
  some (header ++ content)

/-- The sender of `host:attach(sp)`, and `SprotoRpc.request` -/
def request (name : String) (args : List (ℕ × Value)) (timestamp : ℤ) (behind : ℕ → UInt8) : Option Bytes :=
  (requestBytes name args timestamp).map fun b => sprotoPack b behind

/-! ## Reading a request -/

/-- The header of a package, and what comes after it. -/
def openPackage (src : Bytes) (behind : UInt8) : Except DecodeError (List (ℕ × Value) × Bytes) :=
  match sprotoUnpack src behind with
  | none => .error .raised
  | some bin => (decode basePackage bin).map fun r => (r.1, bin.drop r.2.toNat)

/-- The content of a request, once its protocol is known. -/
def decodeRequest (content : Bytes) : Option Proto → Except DecodeError (Proto × List (ℕ × Value))
  | none => .error .raised
  | some p => (decode p.request content).map fun r => (p, r.1)

/-- `queryproto(self.__proto, header.type)`, where `lprotocol` takes an `int`. Without a type it is a response,
to a session that nobody has. -/
def hostProto : Option Value → Option Proto
  | some (.integer type) => queryProto (toInt32 (type % 2 ^ 32).toNat)
  | _ => none

/-- `host:dispatch`, as `net.unpack` calls it. -/
def hostDispatch (src : Bytes) (behind : UInt8) : Except DecodeError (Proto × List (ℕ × Value)) :=
  openPackage src behind >>= fun x => decodeRequest x.2 (hostProto (x.1.lookup 0))

/-- `sp.protocol(header["type"])`, where a number that is no `int` raises. A type that is 0 or missing is that
of a response, to a session that nobody has. -/
def rpcProto : Option Value → Option Proto
  | some (.integer type) => if type ≠ 0 ∧ -2 ^ 31 ≤ type ∧ type < 2 ^ 31 then queryProto type else none
  | _ => none

/-- `SprotoRpc.dispatch` -/
def rpcDispatch (src : Bytes) (behind : UInt8) : Except DecodeError (Proto × List (ℕ × Value)) :=
  openPackage src behind >>= fun x => decodeRequest x.2 (rpcProto (x.1.lookup 0))

/-- Unpacking makes at most eight bytes of one. -/
theorem length_le_of_packing {p b : Bytes} (h : Packing p b) : b.length ≤ 8 * p.length := by
  induction h with
  | nil => exact Nat.zero_le _
  | seg hm hdata h ih =>
      rw [List.length_cons, List.length_append, List.length_append, length_spread, length_bits]
      omega
  | run hdata h ih =>
      rw [List.length_cons, List.length_cons, List.length_append, List.length_append]
      omega

/-- A number of 64 bits. -/
abbrev Int64 (v : ℤ) : Prop := -2 ^ 63 ≤ v ∧ v < 2 ^ 63

theorem tag_bounds {p : Proto} (h : p ∈ protocols) : 0 < p.tag ∧ p.tag < 256 := by
  have hall : ∀ p ∈ protocols, 0 < p.tag ∧ p.tag < 256 := by decide
  exact hall p h

theorem typed_headerOf {p : Proto} (hp : p ∈ protocols) {timestamp : ℤ} (hts : Int64 timestamp) :
    Typed schema 64 basePackage (headerOf p timestamp) := by
  obtain ⟨hpos, hlt⟩ := tag_bounds hp
  have htype : HasKind (Typed schema 63) .integer (.integer p.tag) :=
    ⟨by omega, by omega⟩
  have hud : Typed schema 63 ud [(2, .integer timestamp)] := by
    refine ⟨List.pairwise_singleton _ _, List.forall_mem_singleton.mpr ⟨⟨2, .integer, false⟩, ?_, rfl, hts⟩⟩
    exact List.mem_cons_of_mem _ (List.mem_cons_of_mem _ List.mem_cons_self)
  refine ⟨by simp [headerOf], List.forall_mem_cons.mpr ⟨?_, List.forall_mem_singleton.mpr ?_⟩⟩
  · exact ⟨⟨0, .integer, false⟩, List.mem_cons_self, rfl, htype⟩
  · exact ⟨⟨2, .struct ud, false⟩, List.mem_cons_of_mem _ (List.mem_cons_of_mem _ List.mem_cons_self), rfl, hud⟩

theorem hostProto_type {p : Proto} (hp : p ∈ protocols) : hostProto (some (.integer p.tag)) = some p := by
  obtain ⟨hpos, hlt⟩ := tag_bounds hp
  have hint : toInt32 ((p.tag : ℤ) % 2 ^ 32).toNat = p.tag := by
    rw [toInt32, if_pos (by omega)]
    omega
  rw [hostProto, hint]
  exact queryProto_eq_some.mpr ⟨hp, rfl⟩

theorem rpcProto_type {p : Proto} (hp : p ∈ protocols) : rpcProto (some (.integer p.tag)) = some p := by
  obtain ⟨hpos, hlt⟩ := tag_bounds hp
  rw [rpcProto, if_pos ⟨by omega, by omega, by omega⟩]
  exact queryProto_eq_some.mpr ⟨hp, rfl⟩

/-- **A package is opened**: the header is decoded, the content is what comes after it. -/
theorem openPackage_sprotoPack {table : List (ℕ × Value)} {header content : Bytes}
    (htable : Typed schema 64 basePackage table) (henc : encode basePackage table = some header)
    {behind : ℕ → UInt8} (hlt : (sprotoPack (header ++ content) behind).length < 2 ^ 28) (x : UInt8) :
    ∃ pad, openPackage (sprotoPack (header ++ content) behind) x = .ok (table, content ++ pad) ∧
      content.length + pad.length < 2 ^ 31 := by
  obtain ⟨pad, hpacking, -⟩ := packing_sprotoPack (header ++ content) behind
  have hunpack := (@sprotoUnpack_eq_some _ _ x).mpr (Or.inl hpacking)
  have hlength := length_le_of_packing hpacking
  rw [List.length_append, List.length_append] at hlength
  obtain ⟨header', henc', hdec⟩ := encode_roundTrips schema 64 basePackage table htable
  obtain rfl := Option.some.inj (henc.symm.trans henc')
  have hheader := hdec (by omega) (content ++ pad) ((header ++ content) ++ pad).length
    (by rw [List.append_assoc, List.length_append]; omega)
  refine ⟨pad, ?_, by omega⟩
  rw [openPackage, hunpack]
  dsimp only
  rw [← List.append_assoc] at hheader
  rw [decode, hheader]
  change Except.ok (table, _) = _
  rw [Int.toNat_natCast, List.append_assoc, List.drop_left' rfl]

/-- **What is requested is dispatched.** A request with a table of its type is made, and as long as its packed
length fits into two bytes, the server and the client read the protocol and the table from it. -/
theorem dispatch_request {name : String} {p : Proto} (hname : protoOfName name = some p)
    {args : List (ℕ × Value)} (hargs : Typed schema 64 p.request args) {timestamp : ℤ} (hts : Int64 timestamp)
    (behind : ℕ → UInt8) :
    ∃ bytes, request name args timestamp behind = some bytes ∧ (bytes.length < 2 ^ 16 → ∀ x,
      hostDispatch bytes x = .ok (p, args) ∧ rpcDispatch bytes x = .ok (p, args)) := by
  have hp : p ∈ protocols := List.mem_of_find?_eq_some hname
  have htable := typed_headerOf hp hts
  obtain ⟨header, hheader, -⟩ := encode_roundTrips schema 64 basePackage _ htable
  obtain ⟨content, hcontent, hdec⟩ := encode_roundTrips schema 64 p.request args hargs
  have hbytes : requestBytes name args timestamp = some (header ++ content) := by
    rw [requestBytes, hname, Option.bind_eq_bind, Option.bind_some, encode, hheader, Option.bind_eq_bind,
      Option.bind_some, encode, hcontent]
    rfl
  refine ⟨sprotoPack (header ++ content) behind, by rw [request, hbytes, Option.map_some], fun hlt x => ?_⟩
  obtain ⟨pad, hopen, hshort⟩ := openPackage_sprotoPack htable hheader (hlt.trans (by decide)) x
  have hdecode : decodeRequest (content ++ pad) (some p) = .ok (p, args) := by
    have hdec := hdec (by omega) pad (content ++ pad).length (by rw [List.length_append]; omega)
    rw [decodeRequest, decode, hdec]
    rfl
  constructor
  · rw [hostDispatch, hopen, ok_bind]
    change decodeRequest _ (hostProto (some (.integer p.tag))) = _
    rw [hostProto_type hp, hdecode]
  · rw [rpcDispatch, hopen, ok_bind]
    change decodeRequest _ (rpcProto (some (.integer p.tag))) = _
    rw [rpcProto_type hp, hdecode]

/-- **Whatever a client sends, the server reads nothing but the bytes of it** once they are unpacked: no type of
the game has an array of numbers. -/
theorem hostDispatch_inBounds (src : Bytes) (behind : UInt8) :
    hostDispatch src behind ≠ .error .outOfBounds := by
  have hkinds : ∀ t, ∀ k ∈ kinds t, k.2 = true → k.1 ≠ .integer ∧ k.1 ≠ .boolean := by
    intro t
    unfold kinds
    split <;> decide
  have hschema : ∀ t, ∀ f ∈ (schema t).fields, f.array = true → f.kind ≠ .integer ∧ f.kind ≠ .boolean := by
    intro t f hf harray
    obtain ⟨i, hi, rfl⟩ := List.mem_mapIdx.mp hf
    exact hkinds t _ (List.getElem_mem hi) harray
  have hdecode : ∀ t (src : Bytes), InBounds (decode t src) := fun t src => inBounds_decode hschema 64 t le_rfl
  have hopen : InBounds (openPackage src behind) := by
    rw [openPackage]
    cases sprotoUnpack src behind with
    | none => exact fun h => DecodeError.noConfusion (Except.error.inj h)
    | some bin => exact (hdecode _ _).map
  refine InBounds.bind hopen fun x _ => ?_
  cases hostProto (x.1.lookup 0) with
  | none => exact fun h => DecodeError.noConfusion (Except.error.inj h)
  | some p => exact (hdecode _ _).map

end Game

end FrameSync
