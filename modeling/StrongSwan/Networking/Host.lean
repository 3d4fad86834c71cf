import StrongSwan.Basic
import StrongSwan.Lib.Bytes

/-!
# Hosts

`Host` is an IPv4 or IPv6 address with a port. The address is kept in network order with the length
its family asks for, so it is determined by its numeric value (`Host.value`, `Host.ext_value`).
`Host.ipEquals` is an equivalence.
-/

namespace StrongSwan

/-- `AF_INET` and `AF_INET6` -/
inductive Family
  | inet
  | inet6
  deriving DecidableEq, Repr

/-- The length of an address, in bytes. -/
def Family.len : Family → ℕ
  | .inet => 4
  | .inet6 => 16

structure Host where
  family : Family
  /-- network order -/
  address : Chunk
  port : U16
  length_address : address.length = family.len
  deriving DecidableEq

/-- A host in 10.0.0.0/24. -/
def Host.ofLast (last : U8) (port : U16) : Host := ⟨.inet, [10, 0, 0, last], port, rfl⟩

def hostCreateFromChunk (family : Family) (address : Chunk) (port : U16) : Option Host :=
  if h : address.length < family.len then none
  else some ⟨family, address.take family.len, port, by simp; omega⟩

theorem hostCreateFromChunk_of_length {family : Family} {address : Chunk} (port : U16)
    (h : address.length = family.len) :
    hostCreateFromChunk family address port = some ⟨family, address, port, h⟩ := by
  rw [hostCreateFromChunk, dif_neg (by omega)]
  simp [List.take_of_length_le h.le]

namespace Host

/-- Is the address all zero? -/
def isAnyaddr (this : Host) : Bool := this.address.all (· = 0)

def ipEquals (this other : Host) : Bool :=
  if this.family ≠ other.family then
    -- 0.0.0.0 and 0::0 are equal
    this.isAnyaddr && other.isAnyaddr
  else this.address = other.address

variable {a b : Host}

theorem ipEquals_of_family_eq (h : a.family = b.family) :
    a.ipEquals b = true ↔ a.address = b.address := by
  simp [ipEquals, h]

theorem ipEquals_of_family_ne (h : a.family ≠ b.family) :
    a.ipEquals b = true ↔ a.isAnyaddr = true ∧ b.isAnyaddr = true := by
  simp [ipEquals, h]

theorem isAnyaddr_congr (h : a.address = b.address) :
    a.isAnyaddr = b.isAnyaddr := by
  rw [isAnyaddr, isAnyaddr, h]

theorem address_eq_of_isAnyaddr (hf : a.family = b.family)
    (ha : a.isAnyaddr = true) (hb : b.isAnyaddr = true) : a.address = b.address := by
  have hzero : ∀ {c : Host}, c.isAnyaddr = true → c.address = List.replicate c.family.len 0 := by
    intro c hc
    rw [List.eq_replicate_iff]
    exact ⟨c.length_address, fun x hx => by simpa using List.all_eq_true.mp hc x hx⟩
  rw [hzero ha, hzero hb, hf]

theorem ipEquals_refl (a : Host) : a.ipEquals a = true := by
  rw [ipEquals_of_family_eq rfl]

theorem ipEquals_symm (h : a.ipEquals b = true) : b.ipEquals a = true := by
  by_cases hf : a.family = b.family
  · rw [ipEquals_of_family_eq hf.symm]
    exact ((ipEquals_of_family_eq hf).mp h).symm
  · rw [ipEquals_of_family_ne (Ne.symm hf)]
    exact ((ipEquals_of_family_ne hf).mp h).symm

theorem ipEquals_trans {a b c : Host} (hab : a.ipEquals b = true) (hbc : b.ipEquals c = true) :
    a.ipEquals c = true := by
  by_cases h₁ : a.family = b.family
  · rw [ipEquals_of_family_eq h₁] at hab
    by_cases h₂ : b.family = c.family
    · rw [ipEquals_of_family_eq h₂] at hbc
      rw [ipEquals_of_family_eq (h₁.trans h₂), hab, hbc]
    · rw [ipEquals_of_family_ne h₂] at hbc
      rw [ipEquals_of_family_ne (fun h => h₂ (h₁.symm.trans h)), isAnyaddr_congr hab]
      exact hbc
  · rw [ipEquals_of_family_ne h₁] at hab
    by_cases h₂ : b.family = c.family
    · rw [ipEquals_of_family_eq h₂] at hbc
      rw [ipEquals_of_family_ne (fun h => h₁ (h.trans h₂.symm)), ← isAnyaddr_congr hbc]
      exact hab
    · -- the two changes of family lead back to the first one
      rw [ipEquals_of_family_ne h₂] at hbc
      have h₃ : a.family = c.family := by
        cases ha : a.family <;> cases hb : b.family <;> cases hc : c.family <;> simp_all
      rw [ipEquals_of_family_eq h₃]
      exact address_eq_of_isAnyaddr h₃ hab.1 hbc.2

/-- The address as a number. -/
def value (this : Host) : ℕ := Bytes.value this.address

/-- **A host is its family, the number of its address and its port.** -/
theorem ext_value (hf : a.family = b.family) (hv : a.value = b.value)
    (hp : a.port = b.port) : a = b := by
  have haddr : a.address = b.address :=
    (Bytes.value_inj (by rw [a.length_address, b.length_address, hf])).mp hv
  cases a
  cases b
  simp_all

end Host

end StrongSwan
