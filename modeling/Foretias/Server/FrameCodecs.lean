import Foretias.Library.Framing

/-!
# The frame codecs

Two transports carry JSON-RPC messages in frames: the libp2p codec, with big-endian lengths, and the
TCP connection under a Noise session, with little-endian ones. The writers frame every message, and
truncate its length; the readers of the libp2p codec and of the server have limits, and the reader
of the client has none. So the two ends of a channel agree exactly when the reader has a limit and
every message is within it (`frameLaw_iff`): never from the server to the client, whose stream can
make the client allocate 2^32 − 1 bytes (`not_frameLaw`).
-/

namespace Foretias

/-! ### Readers and writers -/

/-- The largest frame of the libp2p codec. -/
def maxRpcFrameBytes : ℕ := 16 * 1024 * 1024

/-- The largest plaintext of a request to the server. -/
def maxRequestLineBytes : ℕ := 8 * 1024 * 1024

/-- `read_length_prefixed` and `write_length_prefixed` of `ForetiasRpcCodec`, for requests and
responses alike. -/
def rpcFraming : Framing := ⟨.bigEndian, some (maxRpcFrameBytes, "RPC frame too large")⟩

/-- `read_length_prefixed` and `write_length_prefixed` of the server. -/
def serverFraming : Framing :=
  ⟨.littleEndian, some (maxRequestLineBytes + 65535, "oversized message")⟩

/-- How `json_rpc_call` of the client writes its request and reads the response. -/
def clientFraming : Framing := ⟨.littleEndian, none⟩

/-! ### Channels -/

/-- A transport in one direction. -/
inductive FrameChannel
  | libp2p
  | clientToServer
  | serverToClient

namespace FrameChannel

/-- The writing side. -/
def writer : FrameChannel → Framing
  | libp2p => rpcFraming
  | clientToServer => clientFraming
  | serverToClient => serverFraming

/-- The reading side. -/
def reader : FrameChannel → Framing
  | libp2p => rpcFraming
  | clientToServer => serverFraming
  | serverToClient => clientFraming

variable (channel : FrameChannel)

/-- Both sides of a channel write the same frames. -/
theorem write_writer : channel.writer.write = channel.reader.write := by
  cases channel <;> rfl

/-- A limit excludes some of the lengths that four bytes can say. -/
theorem limit_lt {l : ℕ × String} (h : l ∈ channel.reader.limit) : l.1 < 2 ^ 32 - 1 := by
  rcases channel with - | - | -
  · obtain rfl := Option.mem_some.1 h
    show 16 * 1024 * 1024 < _
    omega
  · obtain rfl := Option.mem_some.1 h
    show 8 * 1024 * 1024 + 65535 < _
    omega
  · exact absurd h (Option.not_mem_none _)

/-! ### Agreement -/

/-- The two sides agree on these messages: the reader returns exactly them, it fails on every proper
beginning of a frame, and it has a bound on what it allocates that holds for every stream. A bound
that every length obeys is none. -/
structure FrameLaw (messages : List Bytes) : Prop where
  roundTrip : channel.reader.readMany messages.length (messages.flatMap channel.writer.write) =
    .ok (messages, [])
  cut : ∀ m ∈ messages, ∀ k < (channel.writer.write m).length,
    ∃ e, (channel.reader.read ((channel.writer.write m).take k)).result = .error e
  bounded : ∃ bound < 2 ^ 32 - 1, ∀ s, (channel.reader.read s).allocated ≤ bound

variable {channel} {messages : List Bytes}

/-- **The messages come through, in either order of bytes, iff the reader admits each of them.** -/
theorem roundTrip_iff :
    channel.reader.readMany messages.length (messages.flatMap channel.writer.write) =
      .ok (messages, []) ↔ ∀ m ∈ messages, channel.reader.Fits m := by
  rw [write_writer]
  exact Framing.readMany_write_iff

/-- A message within a limit fits. -/
theorem fits_of_le {l : ℕ × String} (hl : l ∈ channel.reader.limit) {m : Bytes}
    (hm : m.length ≤ l.1) : channel.reader.Fits m := by
  have hlt := limit_lt channel hl
  refine ⟨by omega, fun l' hl' ↦ ?_⟩
  obtain rfl := Option.mem_unique hl hl'
  exact hm

variable (channel messages)

/-- The two sides of a channel agree on messages iff the reader has a limit and each message is
within it. -/
theorem frameLaw_iff :
    channel.FrameLaw messages ↔ ∃ l ∈ channel.reader.limit, ∀ m ∈ messages, m.length ≤ l.1 := by
  constructor
  · intro h
    obtain ⟨l, hl, -⟩ := Framing.exists_bound_iff.1 h.bounded
    exact ⟨l, hl, fun m hm ↦ (roundTrip_iff.1 h.roundTrip m hm).2 l hl⟩
  · rintro ⟨l, hl, hle⟩
    have hfits : ∀ m ∈ messages, channel.reader.Fits m := fun m hm ↦ fits_of_le hl (hle m hm)
    refine ⟨roundTrip_iff.2 hfits, fun m hm k hk ↦ ?_,
      Framing.exists_bound_iff.2 ⟨l, hl, limit_lt channel hl⟩⟩
    rw [write_writer] at hk ⊢
    exact Framing.read_take_write (hfits m hm).1 hk

/-- No bound holds for what the client reads: the length `FF FF FF FF` makes it allocate 2^32 − 1
bytes. And the libp2p codec writes a message of one byte more than its reader admits. -/
theorem not_frameLaw :
    (clientFraming.read [0xFF, 0xFF, 0xFF, 0xFF]).allocated = 2 ^ 32 - 1 ∧
      ¬serverToClient.FrameLaw [] ∧
        ¬libp2p.FrameLaw [List.replicate (16 * 1024 * 1024 + 1) 0] := by
  refine ⟨rfl, fun h ↦ ?_, fun h ↦ ?_⟩
  · obtain ⟨l, hl, -⟩ := Framing.exists_bound_iff.1 h.bounded
    exact Option.not_mem_none l hl
  · have hfits := roundTrip_iff.1 h.roundTrip _ (List.mem_singleton_self _)
    have hle := hfits.2 _ (Option.mem_some_self _)
    rw [List.length_replicate] at hle
    exact Nat.not_succ_le_self _ hle

end FrameChannel

end Foretias
