import FrameSync.Skynet.Netpack
import FrameSync.Wire.Messages

/-! # What the server reads

The way of a message from `RpcService.send` of a client to `Net.unpack` on the server: packed, framed, cut into
segments that the gate gets between those of other sockets, put together by `netpack`, unpacked and decoded.
The server reads the messages that the client sent, as far as they have arrived (`server_reads_sent`). -/

namespace FrameSync

open Framing Sproto Game Skynet

/-- A message that a client sends. -/
structure ClientSent where
  /-- The message. -/
  msg : ClientMsg
  /-- Its protocol. -/
  proto : Proto
  /-- `int(time.time())` -/
  time : ℤ
  /-- What lies behind the encoded request in memory. -/
  behind : ℕ → UInt8
  /-- It is a request of the client. -/
  proto_eq : msg.proto? = some proto
  /-- An integer that does not fit into 64 bits raises an error. -/
  int64 : AllInt64 msg.integers
  /-- So does a time. -/
  int64_time : Int64 time
  /-- `struct.pack("!H", ..)` takes the length. -/
  short : ((request proto.name msg.table time behind).getD []).length < 65536

namespace ClientSent

/-- `self.proto.request(protoname, msg, None, ud)` -/
def packet (c : ClientSent) : List UInt8 := (request c.proto.name c.msg.table c.time c.behind).getD []

/-- `Net.unpack`, with what the services of the server do with its results. -/
def read (behind : UInt8) (msg : List UInt8) : Except DecodeError ClientMsg :=
  (hostDispatch msg behind).map fun r => ClientMsg.ofRequest r.1 r.2

theorem read_packet (c : ClientSent) (behind : UInt8) : read behind c.packet = .ok c.msg := by
  obtain ⟨bytes, hrequest, hread⟩ := hostDispatch_clientMsg c.proto_eq c.int64 c.int64_time c.behind
  have hshort := c.short
  rw [hrequest, Option.getD_some] at hshort
  rw [packet, hrequest, Option.getD_some]
  exact hread hshort behind

end ClientSent

/-- **The server reads what a client sends.** The gate got the messages `ms` of its sockets, in which a
socket was not closed and its segments are the beginning of what the client sent: the packets that it
dispatched for the socket are read as the messages of the client, all that have arrived completely and no
others. -/
theorem server_reads_sent {sent : List ClientSent} {ms : List SocketMessage} {fd : ℕ} {s : List UInt8}
    (hstreams : Packets.streams fd ms = [s]) (hs : s <+: frames (sent.map ClientSent.packet)) (behind : UInt8) :
    ((Packets.run ms).ofSocket fd).map (ClientSent.read behind) =
      (sent.take (completeCount (sent.map ClientSent.packet) s.length)).map fun c => .ok c.msg := by
  have hshort : ∀ p ∈ sent.map ClientSent.packet, p.length < 65536 := by
    intro p hp
    obtain ⟨c, -, rfl⟩ := List.mem_map.mp hp
    exact c.short
  obtain ⟨rest, hdeframes⟩ := deframes_deframe s
  rw [Packets.ofSocket_run, hstreams, List.flatMap_singleton, hdeframes.complete_eq hshort hs, complete,
    ← List.map_take, List.map_map]
  exact List.map_congr_left fun c _ => c.read_packet behind

/-- A client that logs in, and another socket that is closed in between. -/
def loginSent : ClientSent where
  msg := .c2gsLogin (some 7)
  proto := ⟨100, "c2gs_login", 9⟩
  time := 5
  behind := fun _ => 0
  proto_eq := rfl
  int64 := by decide
  int64_time := by decide
  short := by decide +kernel

theorem server_reads_sent_login :
    ((Packets.run [.accept 2, .accept 3, .data 2 ⟨[0], by decide⟩, .data 3 ⟨[0], by decide⟩, .close 3,
        .data 2 ⟨(frame loginSent.packet).drop 1, by decide +kernel⟩]).ofSocket 2).map (ClientSent.read 0) =
      ([loginSent].take (completeCount [loginSent.packet] (frame loginSent.packet).length)).map
        fun c => .ok c.msg := by
  have hfirst : (frame loginSent.packet) = 0 :: (frame loginSent.packet).drop 1 := by decide +kernel
  refine @server_reads_sent [loginSent] _ _ (frame loginSent.packet) ?_ ?_ 0
  · show [[] ++ [0] ++ (frame loginSent.packet).drop 1] = [frame loginSent.packet]
    rw [List.nil_append, List.singleton_append, ← hfirst]
  · have hframes : frames ([loginSent].map ClientSent.packet) = frame loginSent.packet := by
      rw [List.map_singleton, frames_cons, frames_nil, List.append_nil]
    exact hframes ▸ List.prefix_rfl

end FrameSync
