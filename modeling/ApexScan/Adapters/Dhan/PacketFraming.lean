import ApexScan.Adapters.Dhan.Live

/-!
# Framing inverts concatenation (`app/adapters/dhan/live.py`)

A message is packets stacked one after another.  The generator walks it by the length in each header,
and the decoder refuses a packet whose header does not carry the packet's length.

* `SelfDelimiting` — a header is there and carries the packet's length.
* `decode_selfDelimiting` — what decodes is self-delimiting.
* `packetSize_append`, `selfDelimiting_take` — what the generator cuts off, and what it goes by.
* `iter_inverts_flatten` — stacked packets are cut back, and what is cut off any message is a stack.

Main result: `iter_inverts_flatten`.
-/

set_option autoImplicit false

namespace ApexScan.Dhan

open Lib

/-- A packet whose header carries the packet's own length. -/
structure SelfDelimiting (packet : List UInt8) : Prop where
  header : headerSize ≤ packet.length
  carries : messageLength packet = packet.length

variable {packet message : List UInt8}

/-! ## One packet -/

theorem messageLength_append (rest : List UInt8) (h : headerSize ≤ packet.length) :
    messageLength (packet ++ rest) = messageLength packet := by
  unfold headerSize at h
  exact integerAt_append rest (by omega)

theorem SelfDelimiting.ne_nil (h : SelfDelimiting packet) : packet ≠ [] := by
  intro hnil
  have := h.header
  rw [hnil] at this
  cases this

/-- The generator goes by the header alone: a self-delimiting packet is cut off whatever follows. -/
theorem packetSize_append (h : SelfDelimiting packet) (rest : List UInt8) :
    packetSize (packet ++ rest) = some packet.length := by
  have hheader := h.header
  have hlength : (packet ++ rest).length = packet.length + rest.length := List.length_append
  unfold packetSize
  rw [messageLength_append rest hheader, h.carries, if_neg (by omega), if_neg (by omega),
    if_neg (by omega), Int.toNat_natCast]

/-- A size is the length in the header, and lies between the header and the end of the message. -/
theorem packetSize_eq_some {n : ℕ} (h : packetSize message = some n) :
    messageLength message = n ∧ headerSize ≤ n ∧ n ≤ message.length := by
  unfold packetSize at h
  split at h
  · cases h
  · split at h
    · cases h
    · split at h
      · cases h
      · have hn := Option.some.inj h
        omega

/-- What is cut off carries its own length. -/
theorem selfDelimiting_take (message : List UInt8) (n : ℕ) (h : packetSize message = some n) :
    SelfDelimiting (message.take n) := by
  obtain ⟨hlength, hheader, hn⟩ := packetSize_eq_some h
  have htake : (message.take n).length = n := List.length_take_of_le hn
  have hmessage := messageLength_append (message.drop n) (htake.symm ▸ hheader)
  rw [List.take_append_drop, hlength] at hmessage
  exact ⟨htake.symm ▸ hheader, hmessage.symm.trans (by rw [htake])⟩

/-! ## The decoder -/

theorem Addressed.selfDelimiting (h : Addressed packet) : SelfDelimiting packet :=
  ⟨h.length, h.messageLength⟩

/-- What decodes carries its own length. -/
theorem decode_selfDelimiting {cashReferences : List DhanInstrumentReference}
    {events : List MarketData} (h : decodeStandardLivePacket packet cashReferences = .ok events) :
    SelfDelimiting packet :=
  (decode_eq_ok_iff.mp h).1.selfDelimiting

/-! ## The whole message -/

/-- Stacked packets are cut back. -/
theorem delimits_packets {packets : List (List UInt8)} (h : ∀ p ∈ packets, SelfDelimiting p) :
    Delimits packetSize packets.flatten packets [] :=
  delimits_flatten (fun p hp => (h p hp).ne_nil) (fun p hp => packetSize_append (h p hp))

/-- Packets that decode, stacked in one message, are the packets of the message. -/
theorem iter_decoded {cashReferences : List DhanInstrumentReference} {packets : List (List UInt8)}
    (h : ∀ p ∈ packets, ∃ events, decodeStandardLivePacket p cashReferences = .ok events) :
    (iterStandardLivePackets packets.flatten).toList = packets := by
  refine toList_framesOf packetSize_pos (delimits_packets fun p hp => ?_)
  obtain ⟨_, hdecode⟩ := h p hp
  exact decode_selfDelimiting hdecode

/-- **Framing inverts concatenation**: stacked packets are cut back and the generator ends there; of
    any message it cuts off stacked packets within as many rounds as there are bytes, and raises where
    they are not the whole of it. -/
theorem iter_inverts_flatten :
    (∀ packets : List (List UInt8), (∀ p ∈ packets, SelfDelimiting p) →
      (iterStandardLivePackets packets.flatten).toList = packets ∧
        (iterStandardLivePackets packets.flatten).raises = false) ∧
    ∀ message : List UInt8,
      (∀ rounds, message.length ≤ rounds →
        framesWithin packetSize rounds message = iterStandardLivePackets message) ∧
      (iterStandardLivePackets message).toList.flatten <+: message ∧
      (∀ p ∈ (iterStandardLivePackets message).toList, SelfDelimiting p) ∧
      ((iterStandardLivePackets message).raises = true ↔
        (iterStandardLivePackets message).toList.flatten ≠ message) := by
  constructor
  · intro packets h
    have hcut := delimits_packets h
    refine ⟨toList_framesOf packetSize_pos hcut, ?_⟩
    rw [← Bool.not_eq_true]
    exact mt (raises_framesOf packetSize_pos hcut).mp (not_not.mpr rfl)
  · intro message
    obtain ⟨tail, hcut⟩ := delimits_framesOf packetSize_pos message
    have hflatten : (iterStandardLivePackets message).toList.flatten ++ tail = message := hcut.flatten
    refine ⟨fun rounds hrounds => framesWithin_eq_framesOf packetSize_pos hrounds,
      ⟨tail, hflatten⟩, hcut.forall_frames selfDelimiting_take, ?_⟩
    apply (raises_framesOf packetSize_pos hcut).trans
    apply not_congr
    constructor
    · intro htail
      rwa [htail, List.append_nil] at hflatten
    · intro hwhole
      rw [hwhole] at hflatten
      exact List.append_right_eq_self.mp hflatten

/-- A packet that is a header only, and a previous close. -/
def stackedPackets : List (List UInt8) :=
  [[7, 8, 0, 1, 0, 0, 0, 0], [6, 16, 0, 1, 0x45, 0x0B, 0, 0, 0, 0, 0xC8, 0x42, 0, 0, 0, 0]]

theorem stackedPackets_selfDelimiting : ∀ p ∈ stackedPackets, SelfDelimiting p := by
  intro p hp
  simp only [stackedPackets, List.mem_cons, List.not_mem_nil, or_false] at hp
  rcases hp with rfl | rfl
  · exact ⟨by decide, by decide +kernel⟩
  · exact ⟨by decide, by decide +kernel⟩

theorem stackedPackets_cut :
    (iterStandardLivePackets stackedPackets.flatten).toList = stackedPackets ∧
      (iterStandardLivePackets stackedPackets.flatten).raises = false :=
  iter_inverts_flatten.1 stackedPackets stackedPackets_selfDelimiting

end ApexScan.Dhan
