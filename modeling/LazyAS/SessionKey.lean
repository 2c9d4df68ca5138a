import Mathlib.Data.Sym.Sym2
import LazyAS.WireText

/-! The key under which `captureOne` of `infoCollect.c` remembers a TCP handshake. The header fields
are the numbers the host reads from the packet, without `ntohs` or `ntohl`: every packet is read the
same way. -/
namespace LazyAS.SessionKey
open WireText

/-- What `captureOne` reads of a frame with an IPv4 and a TCP header. -/
structure Packet where
  shost : Vector UInt8 6
  seconds : Int
  microseconds : Int
  saddr : UInt32
  daddr : UInt32
  source : UInt16
  dest : UInt16
  syn : Bool
  ack : Bool
  deriving DecidableEq

/-- `%04x` and `%08x` of a number that has no more digits than that. -/
def paddedHex : Nat → Nat → Text
  | 0, _ => []
  | width + 1, value => paddedHex width (value / 16) ++ [Nat.digitChar (value % 16)]

def portsText (packet : Packet) : Text :=
  if packet.dest < packet.source then paddedHex 4 packet.dest.toNat ++
    paddedHex 4 packet.source.toNat
  else paddedHex 4 packet.source.toNat ++ paddedHex 4 packet.dest.toNat

def addressesText (packet : Packet) : Text :=
  if packet.daddr < packet.saddr then paddedHex 8 packet.daddr.toNat ++
    paddedHex 8 packet.saddr.toNat
  else paddedHex 8 packet.saddr.toNat ++ paddedHex 8 packet.daddr.toNat

def sessionKey (packet : Packet) : Text := portsText packet ++ addressesText packet

def SameConnection (packet other : Packet) : Prop :=
  s((packet.saddr, packet.source), (packet.daddr, packet.dest)) =
    s((other.saddr, other.source), (other.daddr, other.dest))

/-- Between the same two hosts on the same two ports, but each host on the other one's port. -/
def Crossed (packet other : Packet) : Prop :=
  packet.saddr ≠ packet.daddr ∧ packet.source ≠ packet.dest ∧
    (other.saddr = packet.saddr ∧ other.daddr = packet.daddr ∧ other.source = packet.dest ∧
      other.dest = packet.source ∨
      other.saddr = packet.daddr ∧ other.daddr = packet.saddr ∧ other.source = packet.source ∧
        other.dest = packet.dest)

theorem paddedHex_length (width value : Nat) : (paddedHex width value).length = width := by
  induction width generalizing value with
  | zero => rfl
  | succ width ih => simp [paddedHex, ih]

theorem digitChar_inj (a b : Nat) (small : a < 16) (small' : b < 16)
    (same : Nat.digitChar a = Nat.digitChar b) : a = b := by
  have table : ∀ a b : Fin 16, Nat.digitChar a = Nat.digitChar b → a = b := by decide
  exact congrArg Fin.val (table ⟨a, small⟩ ⟨b, small'⟩ same)

theorem paddedHex_inj (width a b : Nat) (fits : a < 16 ^ width) (fits' : b < 16 ^ width)
    (same : paddedHex width a = paddedHex width b) : a = b := by
  induction width generalizing a b with
  | zero => omega
  | succ width ih =>
      rw [Nat.pow_succ] at fits fits'
      obtain ⟨front, last⟩ := List.append_inj same (by rw [paddedHex_length, paddedHex_length])
      have high := ih (a / 16) (b / 16) (by omega) (by omega) front
      have low := digitChar_inj _ _ (Nat.mod_lt a (by decide)) (Nat.mod_lt b (by decide))
          (List.cons.inj last).1
      omega

def pairText (width a b : Nat) : Text :=
  if b < a then paddedHex width b ++ paddedHex width a else paddedHex width a ++ paddedHex width b

theorem printed_inj (width a b c d : Nat) (fitsA : a < 16 ^ width) (fitsB : b < 16 ^ width)
    (fitsC : c < 16 ^ width) (fitsD : d < 16 ^ width) :
    paddedHex width a ++ paddedHex width b = paddedHex width c ++ paddedHex width d ↔ a = c ∧
      b = d := by
  constructor
  · intro same
    obtain ⟨front, back⟩ := List.append_inj same (by rw [paddedHex_length, paddedHex_length])
    exact ⟨paddedHex_inj width a c fitsA fitsC front, paddedHex_inj width b d fitsB fitsD back⟩
  · rintro ⟨rfl, rfl⟩
    rfl

theorem pairText_same (width a b c d : Nat) (fitsA : a < 16 ^ width) (fitsB : b < 16 ^ width)
    (fitsC : c < 16 ^ width) (fitsD : d < 16 ^ width) : pairText width a b = pairText width c d ↔
      a = c ∧ b = d ∨ a = d ∧ b = c := by
  unfold pairText
  split <;> split
  · rw [printed_inj width b a d c fitsB fitsA fitsD fitsC]
    omega
  · rw [printed_inj width b a c d fitsB fitsA fitsC fitsD]
    omega
  · rw [printed_inj width a b d c fitsA fitsB fitsD fitsC]
    omega
  · rw [printed_inj width a b c d fitsA fitsB fitsC fitsD]
    omega

theorem portsText_pair (packet : Packet) :
    portsText packet = pairText 4 packet.source.toNat packet.dest.toNat := rfl

theorem addressesText_pair (packet : Packet) :
    addressesText packet = pairText 8 packet.saddr.toNat packet.daddr.toNat := rfl

theorem portsText_same (packet other : Packet) : portsText packet = portsText other ↔
    packet.source = other.source ∧ packet.dest = other.dest ∨ packet.source = other.dest ∧
      packet.dest = other.source := by
  rw [portsText_pair, portsText_pair,
    pairText_same 4 _ _ _ _ packet.source.toNat_lt packet.dest.toNat_lt other.source.toNat_lt
    other.dest.toNat_lt]
  simp only [UInt16.toNat_inj]

theorem addressesText_same (packet other : Packet) : addressesText packet = addressesText other ↔
    packet.saddr = other.saddr ∧ packet.daddr = other.daddr ∨ packet.saddr = other.daddr ∧
      packet.daddr = other.saddr := by
  rw [addressesText_pair, addressesText_pair,
    pairText_same 8 _ _ _ _ packet.saddr.toNat_lt packet.daddr.toNat_lt other.saddr.toNat_lt
    other.daddr.toNat_lt]
  simp only [UInt32.toNat_inj]

theorem portsText_length (packet : Packet) : (portsText packet).length = 8 := by
  simp only [portsText]
  split <;> simp [paddedHex_length]

theorem sessionKey_same (packet other : Packet) : sessionKey packet = sessionKey other ↔
    portsText packet = portsText other ∧ addressesText packet = addressesText other := by
  constructor
  · intro same
    exact List.append_inj same (by rw [portsText_length, portsText_length])
  · rintro ⟨ports, addresses⟩
    rw [sessionKey, sessionKey, ports, addresses]

theorem sameConnection_iff (packet other : Packet) : SameConnection packet other ↔
    packet.saddr = other.saddr ∧ packet.source = other.source ∧ packet.daddr = other.daddr ∧
      packet.dest = other.dest ∨
      packet.saddr = other.daddr ∧ packet.source = other.dest ∧ packet.daddr = other.saddr ∧
        packet.dest = other.source := by
  simp only [SameConnection, Sym2.eq_iff, Prod.mk.injEq, and_assoc]

/-- Endpoints with the ports of one order and the addresses of the other are the same in both orders
unless they are crossed. -/
theorem same_end (packet other : Packet)
    (mixed : packet.saddr = other.saddr ∧ packet.daddr = other.daddr ∧ packet.source = other.dest ∧
      packet.dest = other.source ∨
      packet.saddr = other.daddr ∧ packet.daddr = other.saddr ∧ packet.source = other.source ∧
        packet.dest = other.dest)
    (straight : ¬ Crossed packet other) :
    packet.saddr = other.saddr ∧ packet.source = other.source ∧ packet.daddr = other.daddr ∧
      packet.dest = other.dest ∨
      packet.saddr = other.daddr ∧ packet.source = other.dest ∧ packet.daddr = other.saddr ∧
        packet.dest = other.source := by
  by_cases address : packet.saddr = packet.daddr
  · grind
  · have port : packet.source = packet.dest := by
      by_contra different
      exact straight ⟨address, different, by grind⟩
    grind

/-- The key identifies the connection for every pair of packets whose endpoints are not crossed, and
for no other pair. -/
theorem key_identifies (packet other : Packet) :
    (sessionKey packet = sessionKey other ↔ SameConnection packet other) ↔
      ¬ Crossed packet other := by
  rw [sessionKey_same, portsText_same, addressesText_same, sameConnection_iff]
  constructor
  · rintro exactly ⟨addresses, ports,
      ⟨sameS, sameD, crossS, crossD⟩ | ⟨crossS, crossD, sameS, sameD⟩⟩
    · rw [sameS, sameD, crossS, crossD] at exactly
      rcases exactly.mp ⟨Or.inr ⟨rfl, rfl⟩, Or.inl ⟨rfl, rfl⟩⟩ with ⟨_, wrong, _⟩ | ⟨wrong, _⟩
      · exact ports wrong
      · exact addresses wrong
    · rw [crossS, crossD, sameS, sameD] at exactly
      rcases exactly.mp ⟨Or.inl ⟨rfl, rfl⟩, Or.inr ⟨rfl, rfl⟩⟩ with ⟨wrong, _⟩ | ⟨_, wrong, _⟩
      · exact addresses wrong
      · exact ports wrong
  · intro straight
    constructor
    · rintro ⟨⟨source, dest⟩ | ⟨source, dest⟩, ⟨saddr, daddr⟩ | ⟨saddr, daddr⟩⟩
      · exact Or.inl ⟨saddr, source, daddr, dest⟩
      · exact same_end packet other (Or.inr ⟨saddr, daddr, source, dest⟩) straight
      · exact same_end packet other (Or.inl ⟨saddr, daddr, source, dest⟩) straight
      · exact Or.inr ⟨saddr, source, daddr, dest⟩
    · rintro (⟨saddr, source, daddr, dest⟩ | ⟨saddr, source, daddr, dest⟩)
      · exact ⟨Or.inl ⟨source, dest⟩, Or.inl ⟨saddr, daddr⟩⟩
      · exact ⟨Or.inr ⟨source, dest⟩, Or.inr ⟨saddr, daddr⟩⟩

def straightPacket : Packet :=
  ⟨Vector.replicate 6 0, 0, 0, 0x0a000001, 0x0a000002, 1, 2, true, true⟩

def crossedPacket : Packet := ⟨Vector.replicate 6 0, 0, 0, 0x0a000001, 0x0a000002, 2, 1, true, true⟩

theorem crossed_key : ¬ ∀ packet other, sessionKey packet = sessionKey other ↔
    SameConnection packet other := by
  intro identifies
  have same : sessionKey straightPacket = sessionKey crossedPacket := by decide +kernel
  have connection := (sameConnection_iff _ _).mp ((identifies _ _).mp same)
  exact absurd connection (by decide)

end LazyAS.SessionKey
