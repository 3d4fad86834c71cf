import StrongSwan.Radius.RadiusMessage

/-!
# Enumerating attributes

* `attributeEnumerate_some`, `reached_within`: what a call yields, and where the enumerator is.
* `LengthsValid`: every attribute that is reached has a length of two or more.
* **`attributesSafe_iff`**: then, and only then, the enumerator ends and stays in the attributes.
* **`vendorSafe_of_lengthsValid`**: so does the enumerator of vendor attributes.
-/

namespace StrongSwan.Radius

open BioReader Enumeration

variable {msg : Chunk} {e next : AttributeEnumerator} {a : Attribute}

theorem attributeEnumerate_some (h : attributeEnumerate msg e = some (a, next)) :
    RATTR_SIZE ≤ e.left ∧ e.length msg ≤ e.left ∧
      a = ⟨msg.getD e.next 0,
        ⟨e.next + RATTR_SIZE, (2 ^ 64 + e.length msg - RATTR_SIZE) % 2 ^ 64⟩⟩ ∧
      next = ⟨e.next + e.length msg, e.left - e.length msg⟩ := by
  rw [attributeEnumerate] at h
  split_ifs at h with hzero hshort
  injection h with h
  injection h with ha hnext
  exact ⟨Nat.not_lt.mp (not_or.mp hshort).1, Nat.not_lt.mp (not_or.mp hshort).2, ha.symm, hnext.symm⟩

theorem length_lt (msg : Chunk) (e : AttributeEnumerator) : e.length msg < 2 ^ 8 :=
  (msg.getD (e.next + 1) 0).isLt

theorem attributeTurn_yield :
    attributeTurn msg e = .yield a next ↔ attributeEnumerate msg e = some (a, next) := by
  rw [attributeTurn]
  cases attributeEnumerate msg e with
  | none => exact ⟨nofun, nofun⟩
  | some value =>
    obtain ⟨b, last⟩ := value
    rw [Turn.ofOption, Turn.yield.injEq, Option.some.injEq, Prod.mk.injEq]

theorem next_attributeTurn :
    Next (attributeTurn msg) e next ↔ ∃ a, attributeEnumerate msg e = some (a, next) := by
  constructor
  · rintro (hagain | ⟨a, hyield⟩)
    · rw [attributeTurn] at hagain
      cases hcall : attributeEnumerate msg e with
      | none =>
        rw [hcall] at hagain
        cases hagain
      | some value =>
        rw [hcall] at hagain
        cases hagain
    · exact ⟨a, attributeTurn_yield.mp hyield⟩
  · rintro ⟨a, hcall⟩
    exact .inr ⟨a, attributeTurn_yield.mpr hcall⟩

/-- Attributes of a message. -/
def Contains (msg : Chunk) (a : Attribute) : Prop :=
  Yields (attributeTurn msg) (createEnumerator msg) a

/-- The enumerator is behind the header and in the message. -/
def Within (msg : Chunk) (e : AttributeEnumerator) : Prop :=
  RMSG_SIZE ≤ e.next ∧ e.next + e.left ≤ msg.length

theorem within_next (h : Within msg e) (hnext : Next (attributeTurn msg) e next) :
    Within msg next := by
  obtain ⟨a, hcall⟩ := next_attributeTurn.mp hnext
  obtain ⟨-, hle, -, rfl⟩ := attributeEnumerate_some hcall
  obtain ⟨hfront, hback⟩ := h
  refine ⟨?_, ?_⟩
  · show RMSG_SIZE ≤ e.next + e.length msg
    omega
  · show e.next + e.length msg + (e.left - e.length msg) ≤ msg.length
    omega

theorem within_createEnumerator (this : RadiusMessage) :
    Within this.msg (createEnumerator this.msg) := by
  have hsize := this.size
  rw [createEnumerator, this.length_eq]
  split_ifs with hshort
  · exact ⟨le_refl _, hsize⟩
  · refine ⟨le_refl _, ?_⟩
    show RMSG_SIZE + (this.msg.length - RMSG_SIZE) ≤ this.msg.length
    omega

theorem reached_within (this : RadiusMessage)
    (h : Reached (attributeTurn this.msg) (createEnumerator this.msg) e) : Within this.msg e :=
  reached_invariant (fun _ _ hwithin hnext => within_next hwithin hnext)
    (within_createEnumerator this) h

/-- Every attribute that is reached has a length of two or more. -/
def LengthsValid (msg : Chunk) : Prop :=
  ∀ e a next, Reached (attributeTurn msg) (createEnumerator msg) e →
    attributeEnumerate msg e = some (a, next) → RATTR_SIZE ≤ e.length msg

/-- The enumerator ends, and every value lies in its attribute and in the message. -/
def AttributesSafe (msg : Chunk) : Prop :=
  Ends (attributeTurn msg) (createEnumerator msg) ∧
    ∀ e a next, Reached (attributeTurn msg) (createEnumerator msg) e →
      attributeEnumerate msg e = some (a, next) →
        e.next ≤ a.data.ptr ∧ a.data.ptr + a.data.len ≤ e.next + e.length msg ∧
          e.next + e.length msg ≤ msg.length

/-- The enumerator of vendor attributes ends, and every value lies in an attribute. -/
def VendorSafe (msg : Chunk) : Prop :=
  Ends (vendorTurn msg) (createVendorEnumerator msg) ∧
    ∀ v, Yields (vendorTurn msg) (createVendorEnumerator msg) v →
      ∃ a, Contains msg a ∧ a.type = RAT_VENDOR_SPECIFIC ∧ a.data.Contains v.data

theorem data_len (h : RATTR_SIZE ≤ e.length msg) :
    (2 ^ 64 + e.length msg - RATTR_SIZE) % 2 ^ 64 = e.length msg - RATTR_SIZE := by
  have hlt := length_lt msg e
  have hsize : RATTR_SIZE = 2 := rfl
  omega

theorem attributesSafe_iff (this : RadiusMessage) :
    AttributesSafe this.msg ↔ LengthsValid this.msg := by
  constructor
  · rintro ⟨-, hinside⟩ e a next hreached hcall
    obtain ⟨-, hin, -⟩ := hinside e a next hreached hcall
    obtain ⟨-, -, rfl, -⟩ := attributeEnumerate_some hcall
    have hlt := length_lt this.msg e
    have hsize : RATTR_SIZE = 2 := rfl
    -- a length below two wraps to the end of the address space
    by_contra hshort
    have hwrap : (2 ^ 64 + e.length this.msg - RATTR_SIZE) % 2 ^ 64 =
        2 ^ 64 + e.length this.msg - RATTR_SIZE := Nat.mod_eq_of_lt (by omega)
    dsimp only at hin
    rw [hwrap] at hin
    omega
  · intro hvalid
    refine ⟨?_, fun e a next hreached hcall => ?_⟩
    · refine ends_of_decreasing (P := Reached (attributeTurn this.msg) (createEnumerator this.msg))
        AttributeEnumerator.left (fun e next hreached hnext => ⟨hreached.tail hnext, ?_⟩) .refl
      obtain ⟨a, hcall⟩ := next_attributeTurn.mp hnext
      have hlen := hvalid e a next hreached hcall
      obtain ⟨hleft, hle, -, rfl⟩ := attributeEnumerate_some hcall
      have hsize : RATTR_SIZE = 2 := rfl
      show e.left - e.length this.msg < e.left
      omega
    · have hlen := hvalid e a next hreached hcall
      obtain ⟨-, hback⟩ := reached_within this hreached
      obtain ⟨hleft, hle, rfl, -⟩ := attributeEnumerate_some hcall
      refine ⟨Nat.le_add_right _ _, ?_, by omega⟩
      dsimp only
      rw [data_len hlen]
      omega

/-! ## Vendor attributes -/

section vendor

variable {reader data rest : Window} {type : U8}

theorem contains_trans {outer inner last : Window} (h₁ : outer.Contains inner)
    (h₂ : inner.Contains last) : outer.Contains last := by
  rw [Window.Contains] at *
  omega

theorem contains_chunkSkipEnd (chunk : Window) (bytes : ℕ) :
    chunk.Contains (chunkSkipEnd chunk bytes false) := by
  rw [chunkSkipEnd]
  by_cases hmore : chunk.len > bytes
  · rw [if_pos hmore, if_pos (by rfl)]
    refine .inr ⟨Nat.le_add_right _ _, ?_⟩
    dsimp only
    omega
  · rw [if_neg hmore]
    exact .inl rfl

theorem len_chunkSkipEnd (chunk : Window) (bytes : ℕ) :
    (chunkSkipEnd chunk bytes false).len = chunk.len - bytes := by
  rw [chunkSkipEnd]
  by_cases hmore : chunk.len > bytes
  · rw [if_pos hmore, if_pos (by rfl)]
  · rw [if_neg hmore]
    show 0 = chunk.len - bytes
    omega

theorem readInternal_some {α : Type} {mem : ℕ → U8} {bytes access : ℕ} {convert : Chunk → α}
    {buf : Window} {value : α}
    (h : (readInternal mem bytes access convert buf false).value = some value) :
    bytes ≤ buf.len ∧
      (readInternal mem bytes access convert buf false).buf = chunkSkipEnd buf bytes false := by
  rw [readInternal] at h ⊢
  split_ifs at h ⊢ with hshort
  exact ⟨Nat.not_lt.mp hshort, rfl⟩

theorem readVendor_some (h : readVendor msg reader = some (type, data, rest)) :
    reader.Contains data ∧ reader.Contains rest ∧ rest.len < reader.len := by
  rw [readVendor] at h
  split_ifs at h with hshort
  dsimp only at h
  cases htype : (readUint8Internal (memory msg) reader false).value with
  | none =>
    rw [htype] at h
    cases h
  | some value =>
    have hbuf : (readUint8Internal (memory msg) reader false).buf = chunkSkipEnd reader 1 false :=
      (readInternal_some htype).2
    rw [htype, hbuf] at h
    cases hlength : (readUint8Internal (memory msg) (chunkSkipEnd reader 1 false) false).value with
    | none =>
      rw [hlength] at h
      cases h
    | some length =>
      have hbuf' : (readUint8Internal (memory msg) (chunkSkipEnd reader 1 false) false).buf =
          chunkSkipEnd (chunkSkipEnd reader 1 false) 1 false := (readInternal_some hlength).2
      have hin : reader.Contains (chunkSkipEnd (chunkSkipEnd reader 1 false) 1 false) :=
        contains_trans (contains_chunkSkipEnd reader 1) (contains_chunkSkipEnd _ 1)
      have hnum : (BitVec.ofNat 32 (length.toNat - 2)).toNat = length.toNat - 2 := by
        have := length.isLt
        rw [BitVec.toNat_ofNat]
        omega
      rw [hlength, hbuf'] at h
      dsimp only at h
      split_ifs at h with htwo
      obtain ⟨content, hcontent, h⟩ := Option.map_eq_some_iff.mp h
      obtain ⟨hle, hrest⟩ := readInternal_some hcontent
      injection h with _ h
      injection h with hdata hlast
      rw [readDataInternal, hrest] at hlast
      rw [hnum] at hle hlast
      rw [← hdata, ← hlast]
      refine ⟨contains_trans hin (.inr ⟨le_refl _, Nat.add_le_add_left hle _⟩),
        contains_trans hin (contains_chunkSkipEnd _ _), ?_⟩
      rw [len_chunkSkipEnd, len_chunkSkipEnd, len_chunkSkipEnd]
      omega

def VendorEnumerator.size (this : VendorEnumerator) : ℕ :=
  this.inner.left + match this.reader with
    | some reader => reader.len
    | none => 0

def VendorWithin (msg : Chunk) (this : VendorEnumerator) : Prop :=
  Reached (attributeTurn msg) (createEnumerator msg) this.inner ∧
    ∀ reader, this.reader = some reader →
      ∃ a, Contains msg a ∧ a.type = RAT_VENDOR_SPECIFIC ∧ a.data.Contains reader

variable {this after : VendorEnumerator} {v : VendorAttribute}

theorem nextInner_next (hvalid : LengthsValid msg) (h : VendorWithin msg this)
    (hnext : nextInner msg this = .again after) :
    VendorWithin msg after ∧ after.size < this.inner.left := by
  rw [nextInner] at hnext
  cases hcall : attributeEnumerate msg this.inner with
  | none =>
    rw [hcall] at hnext
    cases hnext
  | some value =>
    obtain ⟨a, next⟩ := value
    have hreached := h.1.tail (next_attributeTurn.mpr ⟨a, hcall⟩)
    have hcontains : Contains msg a := ⟨this.inner, next, h.1, attributeTurn_yield.mpr hcall⟩
    have hlen := hvalid _ a next h.1 hcall
    obtain ⟨hleft, hle, ha, hn⟩ := attributeEnumerate_some hcall
    have hsize : RATTR_SIZE = 2 := rfl
    have hnextLeft : next.left = this.inner.left - this.inner.length msg := congrArg (·.left) hn
    rw [hcall] at hnext
    dsimp only at hnext
    have hnone : ∀ vendor, VendorWithin msg ⟨next, vendor, none⟩ ∧
        VendorEnumerator.size ⟨next, vendor, none⟩ < this.inner.left := by
      intro vendor
      refine ⟨⟨hreached, nofun⟩, ?_⟩
      show next.left + 0 < this.inner.left
      omega
    split_ifs at hnext with htype
    · cases hread : (readUint32Internal (memory msg) a.data false).value with
      | none =>
        rw [hread] at hnext
        injection hnext with hnext
        exact hnext ▸ hnone _
      | some vendor =>
        obtain ⟨hfour, hbuf⟩ := readInternal_some hread
        rw [hread] at hnext
        injection hnext with hnext
        subst hnext
        refine ⟨⟨hreached, fun reader hreader => ⟨a, hcontains, htype, ?_⟩⟩, ?_⟩
        · injection hreader with hreader
          rw [← hreader, readUint32Internal, hbuf]
          exact contains_chunkSkipEnd _ _
        · have hdata : a.data.len = this.inner.length msg - RATTR_SIZE := by
            rw [ha, ← data_len hlen]
          show next.left + (readUint32Internal (memory msg) a.data false).buf.len < this.inner.left
          rw [readUint32Internal, hbuf, len_chunkSkipEnd]
          omega
    · injection hnext with hnext
      exact hnext ▸ hnone _

theorem nextInner_ne_yield : nextInner msg this ≠ .yield v after := by
  intro h
  rw [nextInner] at h
  cases hcall : attributeEnumerate msg this.inner with
  | none =>
    rw [hcall] at h
    cases h
  | some value =>
    rw [hcall] at h
    dsimp only at h
    split_ifs at h
    split at h <;> cases h

theorem vendorTurn_next (hvalid : LengthsValid msg) (h : VendorWithin msg this)
    (hnext : Next (vendorTurn msg) this after) :
    VendorWithin msg after ∧ after.size < this.size := by
  obtain ⟨hreached, hreader⟩ := h
  cases hsome : this.reader with
  | none =>
    have hturn : vendorTurn msg this = nextInner msg this := by
      rw [vendorTurn, hsome]
    rcases hnext with hagain | ⟨v, hyield⟩
    · rw [hturn] at hagain
      obtain ⟨hwithin, hlt⟩ := nextInner_next hvalid ⟨hreached, hreader⟩ hagain
      refine ⟨hwithin, hlt.trans_le ?_⟩
      exact Nat.le_add_right _ _
    · exact absurd (hturn ▸ hyield) nextInner_ne_yield
  | some reader =>
    obtain ⟨a, hcontains, htype, hin⟩ := hreader reader hsome
    have hsize : this.size = this.inner.left + reader.len := by
      rw [VendorEnumerator.size, hsome]
    cases hread : readVendor msg reader with
    | none =>
      have hturn : vendorTurn msg this = nextInner msg { this with reader := none } := by
        rw [vendorTurn, hsome]
        dsimp only
        rw [hread]
      rcases hnext with hagain | ⟨v, hyield⟩
      · rw [hturn] at hagain
        have hnone : VendorWithin msg { this with reader := none } := by
          refine ⟨hreached, fun reader hreader => ?_⟩
          cases hreader
        obtain ⟨hwithin, hlt⟩ := nextInner_next hvalid hnone hagain
        exact ⟨hwithin, hlt.trans_le (hsize ▸ Nat.le_add_right _ _)⟩
      · exact absurd (hturn ▸ hyield) nextInner_ne_yield
    | some value =>
      obtain ⟨type, data, rest⟩ := value
      obtain ⟨-, hrest, hlt⟩ := readVendor_some hread
      have hturn : vendorTurn msg this =
          .yield ⟨this.vendor, type, data⟩ { this with reader := some rest } := by
        rw [vendorTurn, hsome]
        dsimp only
        rw [hread]
      obtain rfl : after = { this with reader := some rest } := by
        rcases hnext with hagain | ⟨v, hyield⟩
        · rw [hturn] at hagain
          cases hagain
        · rw [hturn] at hyield
          injection hyield with _ hafter
          exact hafter.symm
      refine ⟨⟨hreached, fun reader' hreader' => ?_⟩, ?_⟩
      · injection hreader' with hreader'
        exact ⟨a, hcontains, htype, contains_trans hin (hreader' ▸ hrest)⟩
      · rw [hsize]
        exact Nat.add_lt_add_left hlt _

theorem vendorTurn_yield (h : VendorWithin msg this) (hyield : vendorTurn msg this = .yield v after) :
    ∃ a, Contains msg a ∧ a.type = RAT_VENDOR_SPECIFIC ∧ a.data.Contains v.data := by
  rw [vendorTurn] at hyield
  cases hsome : this.reader with
  | none =>
    rw [hsome] at hyield
    exact absurd hyield nextInner_ne_yield
  | some reader =>
    obtain ⟨a, hcontains, htype, hin⟩ := h.2 reader hsome
    rw [hsome] at hyield
    dsimp only at hyield
    cases hread : readVendor msg reader with
    | none =>
      rw [hread] at hyield
      exact absurd hyield nextInner_ne_yield
    | some value =>
      obtain ⟨type, data, rest⟩ := value
      obtain ⟨hdata, -⟩ := readVendor_some hread
      rw [hread] at hyield
      injection hyield with hv
      rw [← hv]
      exact ⟨a, hcontains, htype, contains_trans hin hdata⟩

theorem vendorSafe_of_lengthsValid (hvalid : LengthsValid msg) : VendorSafe msg := by
  have hstart : VendorWithin msg (createVendorEnumerator msg) := ⟨.refl, nofun⟩
  refine ⟨ends_of_decreasing (P := VendorWithin msg) VendorEnumerator.size
    (fun _ _ hwithin hnext => vendorTurn_next hvalid hwithin hnext) hstart, ?_⟩
  rintro v ⟨this, after, hreached, hyield⟩
  have hwithin : VendorWithin msg this :=
    reached_invariant (fun _ _ hwithin hnext => (vendorTurn_next hvalid hwithin hnext).1) hstart
      hreached
  exact vendorTurn_yield hwithin hyield

end vendor

end StrongSwan.Radius
