import Mathlib.Data.List.DropRight
import Mathlib.Data.List.TakeWhile
import StrongSwan.Utils.Identification.Matching

/-!
# Distinguished names in text

`atodn` reads names such as "C=CH, O=x" and "/C=CH/O=x" character by character, and builds their DER.

* `AtodnMachine.step`, `atodn`.
* `dnParts`: the attributes of a text, apart from how they are read; **`loop_known`**,
  **`loop_unknown`**: the machine builds them if it knows them all, and fails otherwise.
* `dnParts_join`: the attributes of a text that was written.
* **`atodn_exact`**: what was written is enumerated.
-/

namespace StrongSwan

/-! ## Attributes -/

/-- The bytes of a string -/
def ascii (s : String) : Chunk := s.toList.map fun c => BitVec.ofNat 8 c.toNat

/-- `x501rdn_t`, with the octets of the OID: those on the way to it in `oid.txt`. -/
structure X501Rdn where
  name : Chunk
  oid : Chunk
  type : U8
  deriving DecidableEq

def x501rdns : List X501Rdn :=
  [⟨ascii "ND", [0x02, 0x82, 0x06, 0x01, 0x0A, 0x07, 0x14], asn1PrintableString⟩,
    ⟨ascii "UID", [0x09, 0x92, 0x26, 0x89, 0x93, 0xF2, 0x2C, 0x64, 0x01, 0x01], asn1PrintableString⟩,
    ⟨ascii "DC", [0x09, 0x92, 0x26, 0x89, 0x93, 0xF2, 0x2C, 0x64, 0x01, 0x19], asn1PrintableString⟩,
    ⟨ascii "CN", [0x55, 0x04, 0x03], asn1PrintableString⟩,
    ⟨ascii "S", [0x55, 0x04, 0x04], asn1PrintableString⟩,
    ⟨ascii "SN", [0x55, 0x04, 0x05], asn1PrintableString⟩,
    ⟨ascii "serialNumber", [0x55, 0x04, 0x05], asn1PrintableString⟩,
    ⟨ascii "C", [0x55, 0x04, 0x06], asn1PrintableString⟩,
    ⟨ascii "L", [0x55, 0x04, 0x07], asn1PrintableString⟩,
    ⟨ascii "ST", [0x55, 0x04, 0x08], asn1PrintableString⟩,
    ⟨ascii "STREET", [0x55, 0x04, 0x09], asn1PrintableString⟩,
    ⟨ascii "O", [0x55, 0x04, 0x0A], asn1PrintableString⟩,
    ⟨ascii "OU", [0x55, 0x04, 0x0B], asn1PrintableString⟩,
    ⟨ascii "T", [0x55, 0x04, 0x0C], asn1PrintableString⟩,
    ⟨ascii "D", [0x55, 0x04, 0x0D], asn1PrintableString⟩,
    ⟨ascii "postalAddress", [0x55, 0x04, 0x10], asn1PrintableString⟩,
    ⟨ascii "postalCode", [0x55, 0x04, 0x11], asn1PrintableString⟩,
    ⟨ascii "N", [0x55, 0x04, 0x29], asn1PrintableString⟩,
    ⟨ascii "G", [0x55, 0x04, 0x2A], asn1PrintableString⟩,
    ⟨ascii "I", [0x55, 0x04, 0x2B], asn1PrintableString⟩,
    ⟨ascii "dnQualifier", [0x55, 0x04, 0x2E], asn1PrintableString⟩,
    ⟨ascii "dmdName", [0x55, 0x04, 0x36], asn1PrintableString⟩,
    ⟨ascii "pseudonym", [0x55, 0x04, 0x41], asn1PrintableString⟩,
    ⟨ascii "ID", [0x55, 0x04, 0x2D], asn1PrintableString⟩,
    ⟨ascii "EN", [0x60, 0x86, 0x48, 0x01, 0x86, 0xF8, 0x42, 0x03, 0x01, 0x03], asn1PrintableString⟩,
    ⟨ascii "employeeNumber", [0x60, 0x86, 0x48, 0x01, 0x86, 0xF8, 0x42, 0x03, 0x01, 0x03],
      asn1PrintableString⟩,
    ⟨ascii "E", oidEmailAddress, asn1Ia5String⟩,
    ⟨ascii "Email", oidEmailAddress, asn1Ia5String⟩,
    ⟨ascii "emailAddress", oidEmailAddress, asn1Ia5String⟩,
    ⟨ascii "UN", [0x2A, 0x86, 0x48, 0x86, 0xF7, 0x0D, 0x01, 0x09, 0x02], asn1Ia5String⟩,
    ⟨ascii "unstructuredName", [0x2A, 0x86, 0x48, 0x86, 0xF7, 0x0D, 0x01, 0x09, 0x02], asn1Ia5String⟩,
    ⟨ascii "UA", [0x2A, 0x86, 0x48, 0x86, 0xF7, 0x0D, 0x01, 0x09, 0x08], asn1PrintableString⟩,
    ⟨ascii "unstructuredAddress", [0x2A, 0x86, 0x48, 0x86, 0xF7, 0x0D, 0x01, 0x09, 0x08],
      asn1PrintableString⟩,
    ⟨ascii "TCGID", [0x2B, 0x06, 0x01, 0x04, 0x01, 0x89, 0x31, 0x01, 0x01, 0x02, 0x02, 0x4B],
      asn1PrintableString⟩]

/-- The attribute of a name; case is ignored. -/
def findRdn (oid : Chunk) : Option X501Rdn :=
  x501rdns.find? fun rdn => rdn.name.length = oid.length && strncasecmp rdn.name oid

/-- `asn1_is_printablestring`; `strchr` finds the end of the set, too. -/
def isPrintablestring (str : Chunk) : Bool :=
  let charset := ascii
    "ABCDEFGHIJKLMNOPQRSTUVWXYZabcdefghijklmnopqrstuvwxyz0123456789 '()+,-./:=?"
  str.all fun c => c = 0 || c ∈ charset

/-- The attribute that is built; values that are no PrintableString are in UTF-8. -/
def X501Rdn.toAttribute (rdn : X501Rdn) (name : Chunk) : Attribute where
  oid := rdn.oid
  type := if rdn.type = asn1PrintableString ∧ ¬isPrintablestring name then asn1Utf8String else rdn.type
  data := name

/-! ## The machine -/

/-- `RDN_MAX` -/
def rdnMax : ℕ := 20

inductive AtodnState
  | searchOid
  | readOid
  | searchName
  | readName
  | unknownOid
  deriving DecidableEq

/-- The variables of `atodn`; `rdn` is the entry that was found last. -/
structure AtodnMachine where
  oid : Chunk
  name : Chunk
  rdns : List Chunk
  whitespace : ℕ
  rdn : X501Rdn
  state : AtodnState
  status : Status
  sep : U8

namespace AtodnMachine

def init : AtodnMachine := ⟨[], [], [], 0, x501rdns.head (by decide), .searchOid, .success, 0⟩

/-- The end of a value: its RDN is built. All OIDs of the table are known ones. -/
def addRdn (this : AtodnMachine) : AtodnMachine :=
  let name := this.name.take (this.name.length - this.whitespace)
  let this :=
    if this.rdns.length < rdnMax then
      { this with rdns := this.rdns ++ [asn1Wrap asn1Set [(this.rdn.toAttribute name).encode]] }
    else { this with status := .outOfRes }
  { this with name := [], state := .searchOid }

def readName (this : AtodnMachine) (c : U8) : AtodnMachine :=
  if c ≠ this.sep ∧ c ≠ 0 then
    { this with name := this.name ++ [c], whitespace := if c = 0x20 then this.whitespace + 1 else 0 }
  else this.addRdn

/-- A character. -/
def step (this : AtodnMachine) (c : U8) : AtodnMachine :=
  match this.state with
  | .searchOid =>
    -- use / as separator if the string starts with a slash
    if this.sep = 0 ∧ c = 0x2f then { this with sep := 0x2f }
    else if c ≠ 0x20 ∧ c ≠ 0 then
      -- use , as separator by default
      { this with sep := if this.sep = 0 then 0x2c else this.sep, oid := [c], state := .readOid }
    else this
  | .readOid =>
    if c ≠ 0x20 ∧ c ≠ 0x3d then { this with oid := this.oid ++ [c] }
    else
      match findRdn this.oid with
      | none => { this with status := .notSupported, state := .unknownOid }
      | some rdn => { this with rdn := rdn, oid := [], state := .searchName }
  | .searchName =>
    if c = 0x20 ∨ c = 0x3d then this
    else if c ≠ this.sep ∧ c ≠ 0 then
      { this with name := [c], whitespace := 0, state := .readName }
    else readName { this with name := [], whitespace := 0, state := .readName } c
  | .readName => this.readName c
  | .unknownOid => this

/-- The characters of a string, and the NUL behind them. -/
def loop (this : AtodnMachine) : Chunk → AtodnMachine
  | [] => this.step 0
  | c :: src => if c = 0 then this.step 0 else (this.step c).loop src

end AtodnMachine

def atodn (src : Chunk) : Except Status Chunk :=
  let this := AtodnMachine.init.loop src
  -- unterminated OID
  let status := if this.state = .readOid then .invalidArg else this.status
  if status = .success then .ok (asn1Wrap asn1Sequence this.rdns) else .error status

/-! ## The parts of a text -/

/-- What ends an attribute. -/
def isGap (c : U8) : Bool := c = 0x20 || c = 0x3d

/-- An attribute and its value, if the text goes on behind the attribute. -/
structure DnPart where
  key : Chunk
  value : Option Chunk

/-- The parts of a text. -/
def dnParts (sep : U8) (s : Chunk) : List DnPart :=
  match _h : s.dropWhile (· = 0x20) with
  | [] => []
  | c :: s' =>
    let key := c :: s'.takeWhile (!isGap ·)
    match _h' : s'.dropWhile (!isGap ·) with
    | [] => [⟨key, none⟩]
    | _ :: t =>
      let value := ((t.dropWhile isGap).takeWhile (· ≠ sep)).rdropWhile (· = 0x20)
      ⟨key, some value⟩ ::
        match _h'' : (t.dropWhile isGap).dropWhile (· ≠ sep) with
        | [] => []
        | _ :: rest => dnParts sep rest
termination_by s.length
decreasing_by
  have h₁ := (List.dropWhile_suffix (p := (· = 0x20)) (l := s)).length_le
  have h₂ := (List.dropWhile_suffix (p := (!isGap ·)) (l := s')).length_le
  have h₃ := (List.dropWhile_suffix (p := isGap) (l := t)).length_le
  have h₄ := (List.dropWhile_suffix (p := (· ≠ sep)) (l := t.dropWhile isGap)).length_le
  rw [_h, List.length_cons] at h₁
  rw [_h', List.length_cons] at h₂
  rw [_h'', List.length_cons] at h₄
  omega

/-- The attribute that is built for a part. -/
def DnPart.toAttribute (part : DnPart) : Option Attribute :=
  match findRdn part.key, part.value with
  | some rdn, some value => some (rdn.toAttribute value)
  | _, _ => none

/-- The separator of a text, and what is behind spaces and a slash in front. -/
def dnSource (s : Chunk) : U8 × Chunk :=
  match s.dropWhile (· = 0x20) with
  | c :: t => if c = 0x2f then (0x2f, t) else (0x2c, c :: t)
  | [] => (0x2c, [])

/-- The text is a key, behind spaces. -/
def IsKey (key s : Chunk) : Prop :=
  ∃ spaces c k, (∀ b ∈ spaces, b = 0x20) ∧ c ≠ 0x20 ∧ (∀ b ∈ k, isGap b = false) ∧ key = c :: k ∧
    s = spaces ++ key

/-- The text is a key and a value, which has no separator and does not begin with a gap. -/
def IsPart (sep : U8) (key value s : Chunk) : Prop :=
  ∃ s' g gaps, IsKey key s' ∧ isGap g = true ∧ (∀ b ∈ gaps, isGap b = true) ∧
    (∀ b ∈ value, b ≠ sep) ∧ (∀ b ∈ value.head?, isGap b = false) ∧ s = s' ++ g :: (gaps ++ value)

theorem dnParts_eq (sep : U8) (s : Chunk) :
    dnParts sep s =
      match s.dropWhile (· = 0x20) with
      | [] => []
      | c :: s' =>
        match s'.dropWhile (!isGap ·) with
        | [] => [⟨c :: s'.takeWhile (!isGap ·), none⟩]
        | _ :: t =>
          ⟨c :: s'.takeWhile (!isGap ·),
              some (((t.dropWhile isGap).takeWhile (· ≠ sep)).rdropWhile (· = 0x20))⟩ ::
            match (t.dropWhile isGap).dropWhile (· ≠ sep) with
            | [] => []
            | _ :: rest => dnParts sep rest := by
  rw [dnParts]
  split
  · rename_i h
    rw [h]
  · rename_i c s' h
    rw [h]
    dsimp only
    split
    · rename_i h'
      rw [h']
    · rename_i g t h'
      rw [h']
      dsimp only
      split
      · rename_i h''
        rw [h'']
      · rename_i d rest h''
        rw [h'']

theorem exists_span (p : U8 → Bool) (s : Chunk) :
    ∃ xs ys, s = xs ++ ys ∧ (∀ b ∈ xs, p b = true) ∧ ∀ b ∈ ys.head?, p b = false := by
  refine ⟨s.takeWhile p, s.dropWhile p, List.takeWhile_append_dropWhile.symm,
    fun b hb => List.mem_takeWhile_imp hb, fun b hb => ?_⟩
  have hhead := List.head?_dropWhile_not p s
  rw [Option.mem_def.mp hb] at hhead
  exact hhead

theorem dropWhile_span {p : U8 → Bool} {xs ys : Chunk} (hxs : ∀ b ∈ xs, p b = true)
    (hys : ∀ b ∈ ys.head?, p b = false) : (xs ++ ys).dropWhile p = ys := by
  rw [List.dropWhile_append_of_pos hxs]
  cases ys with
  | nil => rfl
  | cons b ys => rw [List.dropWhile_cons, hys b rfl, if_neg Bool.false_ne_true]

theorem takeWhile_span {p : U8 → Bool} {xs ys : Chunk} (hxs : ∀ b ∈ xs, p b = true)
    (hys : ∀ b ∈ ys.head?, p b = false) : (xs ++ ys).takeWhile p = xs := by
  rw [List.takeWhile_append_of_pos hxs]
  cases ys with
  | nil => exact List.append_nil xs
  | cons b ys => rw [List.takeWhile_cons, hys b rfl, if_neg Bool.false_ne_true, List.append_nil]

/-- Every text is spaces, a key, or a part that may be followed by more of them. -/
theorem text_cases (sep : U8) (s : Chunk) :
    (∀ b ∈ s, b = 0x20) ∨ (∃ key, IsKey key s) ∨ (∃ key value, IsPart sep key value s) ∨
      ∃ key value head rest, IsPart sep key value head ∧ s = head ++ sep :: rest := by
  obtain ⟨spaces, t, rfl, hspaces, ht⟩ := exists_span (· = 0x20) s
  have hspaces : ∀ b ∈ spaces, b = 0x20 := fun b hb => of_decide_eq_true (hspaces b hb)
  cases t with
  | nil =>
    rw [List.append_nil]
    exact .inl hspaces
  | cons c t =>
    have hc : c ≠ 0x20 := of_decide_eq_false (ht c rfl)
    obtain ⟨k, t, rfl, hk, ht⟩ := exists_span (!isGap ·) t
    have hk : ∀ b ∈ k, isGap b = false := fun b hb => by simpa using hk b hb
    have hkey : IsKey (c :: k) (spaces ++ c :: k) := ⟨spaces, c, k, hspaces, hc, hk, rfl, rfl⟩
    cases t with
    | nil =>
      rw [List.append_nil]
      exact .inr (.inl ⟨_, hkey⟩)
    | cons g t =>
      have hg : isGap g = true := by simpa using ht g rfl
      obtain ⟨gaps, t, rfl, hgaps, ht⟩ := exists_span isGap t
      obtain ⟨value, t, rfl, hvalue, hend⟩ := exists_span (· ≠ sep) t
      have hvalue : ∀ b ∈ value, b ≠ sep := fun b hb => of_decide_eq_true (hvalue b hb)
      have hfirst : ∀ b ∈ value.head?, isGap b = false := by
        cases value with
        | nil => exact fun b hb => absurd hb (Option.not_mem_none b)
        | cons b value => exact ht
      have hpart : IsPart sep (c :: k) value (spaces ++ c :: k ++ g :: (gaps ++ value)) :=
        ⟨_, g, gaps, hkey, hg, hgaps, hvalue, hfirst, rfl⟩
      cases t with
      | nil =>
        refine .inr (.inr (.inl ⟨c :: k, value, ?_⟩))
        simpa using hpart
      | cons d rest =>
        obtain rfl : d = sep := not_not.mp (of_decide_eq_false (hend d rfl))
        exact .inr (.inr (.inr ⟨c :: k, value, _, rest, hpart, by simp⟩))

theorem isGap_eq_false {c : U8} : isGap c = false ↔ c ≠ 0x20 ∧ c ≠ 0x3d := by
  simp [isGap]

theorem dnParts_spaces (sep : U8) {s : Chunk} (h : ∀ b ∈ s, b = 0x20) : dnParts sep s = [] := by
  have hdrop := @dropWhile_span (· = 0x20) s [] (fun b hb => decide_eq_true (h b hb)) nofun
  rw [List.append_nil] at hdrop
  rw [dnParts_eq, hdrop]

theorem dnParts_behind (sep : U8) {key s : Chunk} (h : IsKey key s) {t : Chunk}
    (ht : ∀ b ∈ t.head?, isGap b = true) :
    dnParts sep (s ++ t) =
      match t with
      | [] => [⟨key, none⟩]
      | _ :: t =>
        ⟨key, some (((t.dropWhile isGap).takeWhile (· ≠ sep)).rdropWhile (· = 0x20))⟩ ::
          match (t.dropWhile isGap).dropWhile (· ≠ sep) with
          | [] => []
          | _ :: rest => dnParts sep rest := by
  obtain ⟨spaces, c, k, hspaces, hc, hk, rfl, rfl⟩ := h
  have hdrop : (spaces ++ (c :: k) ++ t).dropWhile (· = 0x20) = c :: (k ++ t) := by
    rw [List.append_assoc]
    exact dropWhile_span (fun b hb => decide_eq_true (hspaces b hb)) fun b hb => by
      obtain rfl : c = b := Option.some.inj hb
      exact decide_eq_false hc
  have hk : ∀ b ∈ k, (!isGap b) = true := fun b hb => by rw [hk b hb]; rfl
  have ht : ∀ b ∈ t.head?, (!isGap b) = false := fun b hb => by rw [ht b hb]; rfl
  rw [dnParts_eq, hdrop]
  dsimp only
  rw [dropWhile_span hk ht, takeWhile_span hk ht]
  cases t <;> rfl

theorem dnParts_key (sep : U8) {key s : Chunk} (h : IsKey key s) :
    dnParts sep s = [⟨key, none⟩] := by
  have hbehind := dnParts_behind sep h (t := []) nofun
  rwa [List.append_nil] at hbehind

theorem dnParts_part {sep : U8} (hsep : isGap sep = false) {key value s : Chunk}
    (h : IsPart sep key value s) {t : Chunk} (ht : ∀ b ∈ t.head?, b = sep) :
    dnParts sep (s ++ t) = ⟨key, some (value.rdropWhile (· = 0x20))⟩ ::
      match t with
      | [] => []
      | _ :: rest => dnParts sep rest := by
  obtain ⟨s', g, gaps, hkey, hg, hgaps, hvalue, hfirst, rfl⟩ := h
  have hvalue : ∀ b ∈ value, decide (b ≠ sep) = true := fun b hb => decide_eq_true (hvalue b hb)
  have hend : ∀ b ∈ t.head?, decide (b ≠ sep) = false := fun b hb =>
    decide_eq_false (not_not.mpr (ht b hb))
  have hfirst : ∀ b ∈ (value ++ t).head?, isGap b = false := by
    cases value with
    | nil => exact fun b hb => by rw [ht b hb, hsep]
    | cons b value => exact hfirst
  rw [List.append_assoc, List.cons_append, List.append_assoc,
    dnParts_behind sep hkey (fun b hb => by rw [← Option.some.inj hb]; exact hg)]
  dsimp only
  rw [dropWhile_span hgaps hfirst, takeWhile_span hvalue hend, dropWhile_span hvalue hend]
  cases t <;> rfl

/-! ## What the machine reads -/

/-- The spaces at the end -/
def trailing (s : Chunk) : ℕ := (s.rtakeWhile (· = 0x20)).length

theorem trailing_concat (s : Chunk) (c : U8) :
    trailing (s ++ [c]) = if c = 0x20 then trailing s + 1 else 0 := by
  unfold trailing
  rw [List.rtakeWhile_concat]
  by_cases hc : c = 0x20
  · rw [if_pos hc, if_pos (decide_eq_true hc), List.length_append, List.length_singleton]
  · rw [if_neg hc, if_neg (by simpa using hc), List.length_nil]

theorem take_trailing (s : Chunk) :
    s.take (s.length - trailing s) = s.rdropWhile (· = 0x20) := by
  have hsplit : s.rdropWhile (· = 0x20) ++ s.rtakeWhile (· = 0x20) = s := by
    rw [List.rdropWhile, List.rtakeWhile, ← List.reverse_append, List.takeWhile_append_dropWhile,
      List.reverse_reverse]
  have hlength := congrArg List.length hsplit
  rw [List.length_append] at hlength
  have htake : s.length - trailing s = (s.rdropWhile (· = 0x20)).length := by
    unfold trailing
    omega
  calc s.take (s.length - trailing s)
      = (s.rdropWhile (· = 0x20) ++ s.rtakeWhile (· = 0x20)).take (s.rdropWhile (· = 0x20)).length := by
        rw [htake, hsplit]
    _ = s.rdropWhile (· = 0x20) := List.take_left

namespace AtodnMachine

variable {this : AtodnMachine} {s : Chunk}

theorem loop_append (h : 0 ∉ s) (t : Chunk) :
    this.loop (s ++ t) = (s.foldl step this).loop t := by
  induction s generalizing this with
  | nil => rfl
  | cons c s ih =>
    obtain ⟨hc, hs⟩ := List.ne_and_not_mem_of_not_mem_cons h
    rw [List.cons_append, loop, if_neg hc.symm, ih hs]
    rfl

theorem foldl_spaces (hstate : this.state = .searchOid) (h : ∀ c ∈ s, c = 0x20) :
    s.foldl step this = this := by
  induction s with
  | nil => rfl
  | cons c s ih =>
    obtain ⟨hc, hs⟩ := List.forall_mem_cons.mp h
    have hstep : this.step c = this := by
      rw [hc, step, hstate]
      dsimp only
      rw [if_neg fun h => absurd h.2 (by decide), if_neg fun h => h.1 rfl]
    rw [List.foldl_cons, hstep, ih hs]

theorem foldl_key (hstate : this.state = .readOid) (h : ∀ c ∈ s, isGap c = false) :
    s.foldl step this = { this with oid := this.oid ++ s } := by
  induction s generalizing this with
  | nil => rw [List.append_nil, List.foldl_nil]
  | cons c s ih =>
    obtain ⟨hc, hs⟩ := List.forall_mem_cons.mp h
    have hstep : this.step c = { this with oid := this.oid ++ [c] } := by
      rw [step, hstate]
      dsimp only
      rw [if_pos (isGap_eq_false.mp hc)]
    have hnext := @ih { this with oid := this.oid ++ [c] } hstate hs
    rw [List.foldl_cons, hstep, hnext, List.append_assoc]
    rfl

theorem foldl_gaps (hstate : this.state = .searchName) (h : ∀ c ∈ s, isGap c = true) :
    s.foldl step this = this := by
  induction s with
  | nil => rfl
  | cons c s ih =>
    obtain ⟨hc, hs⟩ := List.forall_mem_cons.mp h
    have hstep : this.step c = this := by
      rw [step, hstate]
      dsimp only
      rw [if_pos (by simpa [isGap] using hc)]
    rw [List.foldl_cons, hstep, ih hs]

theorem foldl_value (hstate : this.state = .readName) (htrailing : this.whitespace = trailing this.name)
    (h : ∀ c ∈ s, c ≠ this.sep ∧ c ≠ 0) :
    s.foldl step this =
      { this with name := this.name ++ s, whitespace := trailing (this.name ++ s) } := by
  induction s generalizing this with
  | nil => rw [List.append_nil, ← htrailing, List.foldl_nil]
  | cons c s ih =>
    obtain ⟨hc, hs⟩ := List.forall_mem_cons.mp h
    have hstep : this.step c =
        { this with name := this.name ++ [c], whitespace := trailing (this.name ++ [c]) } := by
      rw [step, hstate]
      dsimp only
      rw [readName, if_pos hc, trailing_concat, htrailing, hstate]
    have hnext := @ih { this with name := this.name ++ [c], whitespace := trailing (this.name ++ [c]) }
      hstate rfl hs
    rw [List.foldl_cons, hstep, hnext]
    simp

/-- The RDNs and the status with an RDN that was built. -/
def add (built : List Chunk × Status) (rdn : Chunk) : List Chunk × Status :=
  if built.1.length < rdnMax then (built.1 ++ [rdn], built.2) else (built.1, .outOfRes)

/-- The machine is ready for a key. -/
structure Ready (this : AtodnMachine) (sep : U8) (built : List Chunk × Status) : Prop where
  state : this.state = .searchOid
  sep : this.sep = sep
  rdns : this.rdns = built.1
  status : this.status = built.2

theorem ready_addRdn (htrailing : this.whitespace = trailing this.name) :
    Ready this.addRdn this.sep (add (this.rdns, this.status)
      (asn1Wrap asn1Set [(this.rdn.toAttribute (this.name.rdropWhile (· = 0x20))).encode])) := by
  unfold addRdn add
  rw [htrailing, take_trailing]
  dsimp only
  by_cases hroom : this.rdns.length < rdnMax
  · rw [if_pos hroom, if_pos hroom]
    exact ⟨rfl, rfl, rfl, rfl⟩
  · rw [if_neg hroom, if_neg hroom]
    exact ⟨rfl, rfl, rfl, rfl⟩

theorem ready_value (hstate : this.state = .searchName) (hsep : isGap this.sep = false)
    (hvalue : ∀ c ∈ s, c ≠ this.sep ∧ c ≠ 0) (hfirst : ∀ c ∈ s.head?, isGap c = false) {c : U8}
    (hc : c = this.sep ∨ c = 0) :
    Ready ((s.foldl step this).step c) this.sep (add (this.rdns, this.status)
      (asn1Wrap asn1Set [(this.rdn.toAttribute (s.rdropWhile (· = 0x20))).encode])) := by
  have hend : ¬(c ≠ this.sep ∧ c ≠ 0) := fun h => hc.elim h.1 h.2
  have hgap : ¬(c = 0x20 ∨ c = 0x3d) := by
    have hnot : isGap c = false := hc.elim (fun h => h ▸ hsep) fun h => by rw [h]; decide
    simpa [isGap] using hnot
  cases s with
  | nil =>
    rw [List.foldl_nil, step, hstate]
    dsimp only
    rw [if_neg hgap, if_neg hend, readName, if_neg hend]
    exact @ready_addRdn { this with name := [], whitespace := 0, state := .readName } rfl
  | cons d s =>
    obtain ⟨hd, hs⟩ := List.forall_mem_cons.mp hvalue
    have hspace := (isGap_eq_false.mp (hfirst d rfl))
    have hstep : this.step d = { this with name := [d], whitespace := 0, state := .readName } := by
      rw [step, hstate]
      dsimp only
      rw [if_neg (not_or.mpr hspace), if_pos hd]
    have htrailing : 0 = trailing [d] := by
      have hconcat := trailing_concat [] d
      rw [if_neg hspace.1] at hconcat
      exact hconcat.symm
    have hread := @foldl_value { this with name := [d], whitespace := 0, state := .readName } s rfl
      htrailing hs
    rw [List.foldl_cons, hstep, hread, step]
    dsimp only
    rw [readName, if_neg hend]
    exact @ready_addRdn { this with
      name := [d] ++ s, whitespace := trailing ([d] ++ s), state := .readName } rfl

theorem step_first (hstate : this.state = .searchOid) {c : U8} (hslash : this.sep = 0 → c ≠ 0x2f)
    (hspace : c ≠ 0x20) (hnul : c ≠ 0) : this.step c =
      { this with
        sep := if this.sep = 0 then 0x2c else this.sep, oid := [c], state := .readOid } := by
  rw [step, hstate]
  dsimp only
  rw [if_neg fun h => hslash h.1 h.2, if_pos ⟨hspace, hnul⟩]

theorem foldl_isKey (hstate : this.state = .searchOid) (hsep : this.sep ≠ 0) {key : Chunk}
    (hkey : IsKey key s) (hzero : 0 ∉ s) :
    s.foldl step this = { this with oid := key, state := .readOid } := by
  obtain ⟨spaces, c, k, hspaces, hc, hk, rfl, rfl⟩ := hkey
  have hnul : c ≠ 0 := fun h => hzero (List.mem_append_right _ (h ▸ List.mem_cons_self))
  have hstep : this.step c = { this with oid := [c], state := .readOid } := by
    rw [step_first hstate (fun h => absurd h hsep) hc hnul, if_neg hsep]
  rw [List.foldl_append, foldl_spaces hstate hspaces, List.foldl_cons, hstep, foldl_key rfl hk]
  rfl

theorem step_gap (hstate : this.state = .readOid) {g : U8} (hg : isGap g = true) :
    this.step g =
      match findRdn this.oid with
      | none => { this with status := .notSupported, state := .unknownOid }
      | some rdn => { this with rdn := rdn, oid := [], state := .searchName } := by
  have hnot : ¬(g ≠ 0x20 ∧ g ≠ 0x3d) := fun h => by
    rw [isGap_eq_false.mpr h] at hg
    cases hg
  rw [step, hstate]
  dsimp only
  rw [if_neg hnot]

theorem foldl_unknown (hstate : this.state = .unknownOid) : s.foldl step this = this := by
  induction s with
  | nil => rfl
  | cons c s ih =>
    have hstep : this.step c = this := by rw [step, hstate]
    rw [List.foldl_cons, hstep, ih]

theorem ready_spaces {sep : U8} {built : List Chunk × Status} (h : Ready this sep built)
    (hs : ∀ c ∈ s, c = 0x20) : Ready (this.loop s) sep built := by
  have hzero : 0 ∉ s := fun hmem => absurd (hs 0 hmem) (by decide)
  have hend : this.step 0 = this := by
    rw [step, h.state]
    dsimp only
    rw [if_neg fun h => absurd h.2 (by decide), if_neg fun h => h.2 rfl]
  have hloop := @loop_append this s hzero []
  rw [List.append_nil, foldl_spaces h.state hs, loop, hend] at hloop
  rw [hloop]
  exact h

section Parts

variable {sep : U8} {built : List Chunk × Status} {key value head : Chunk}

theorem ready_part (h : Ready this sep built) (hsep : isGap sep = false) (hnul : sep ≠ 0)
    (hpart : IsPart sep key value head) (hzero : 0 ∉ head) {rdn : X501Rdn}
    (hfind : findRdn key = some rdn) {c : U8} (hc : c = sep ∨ c = 0) :
    Ready ((head.foldl step this).step c) sep
      (add built (asn1Wrap asn1Set [(rdn.toAttribute (value.rdropWhile (· = 0x20))).encode])) := by
  obtain ⟨s', g, gaps, hkey, hg, hgaps, hvalue, hfirst, rfl⟩ := hpart
  rw [List.mem_append, List.mem_cons, List.mem_append, not_or, not_or, not_or] at hzero
  obtain ⟨hzero', -, -, hzero⟩ := hzero
  have hthis : this.sep = sep := h.sep
  have hbuilt : (this.rdns, this.status) = built := Prod.ext h.rdns h.status
  rw [List.foldl_append, foldl_isKey h.state (hthis ▸ hnul) hkey hzero', List.foldl_cons,
    step_gap rfl hg]
  dsimp only
  rw [hfind]
  dsimp only
  rw [List.foldl_append, foldl_gaps rfl hgaps]
  have hready := @ready_value { this with oid := [], rdn := rdn, state := .searchName } value rfl
    (hthis ▸ hsep) (fun b hb => ⟨hthis ▸ hvalue b hb, fun h => hzero (h ▸ hb)⟩) hfirst c
    (hthis ▸ hc)
  rw [← hbuilt, ← hthis]
  exact hready

theorem unknown_part (h : Ready this sep built) (hnul : sep ≠ 0) (hpart : IsPart sep key value head)
    (hzero : 0 ∉ head) (hfind : findRdn key = none) :
    (head.foldl step this).state = .unknownOid ∧ (head.foldl step this).status = .notSupported := by
  obtain ⟨s', g, gaps, hkey, hg, hgaps, hvalue, hfirst, rfl⟩ := hpart
  rw [List.mem_append, not_or] at hzero
  have hthis : this.sep = sep := h.sep
  rw [List.foldl_append, foldl_isKey h.state (hthis ▸ hnul) hkey hzero.1, List.foldl_cons,
    step_gap rfl hg]
  dsimp only
  rw [hfind]
  dsimp only
  rw [foldl_unknown rfl]
  exact ⟨rfl, rfl⟩

theorem toAttribute_some (key value : Chunk) :
    (⟨key, some value⟩ : DnPart).toAttribute = (findRdn key).map (·.toAttribute value) := by
  unfold DnPart.toAttribute
  cases findRdn key <;> rfl

theorem toAttribute_none (key : Chunk) : (⟨key, none⟩ : DnPart).toAttribute = none := by
  unfold DnPart.toAttribute
  cases findRdn key <;> rfl

theorem loop_end (hzero : 0 ∉ s) : this.loop s = (s.foldl step this).step 0 := by
  have hloop := @loop_append this s hzero []
  rwa [List.append_nil, loop] at hloop

theorem loop_sep (hzero : 0 ∉ s) (hnul : sep ≠ 0) (rest : Chunk) :
    this.loop (s ++ sep :: rest) = ((s.foldl step this).step sep).loop rest := by
  rw [loop_append hzero, loop, if_neg hnul]

/-- **Attributes that are known are built** in their order. -/
theorem loop_known (hsep : isGap sep = false) (hnul : sep ≠ 0) (hzero : 0 ∉ s)
    (h : Ready this sep built) {as : List Attribute}
    (has : List.Forall₂ (fun part a => part.toAttribute = some a) (dnParts sep s) as) :
    Ready (this.loop s) sep
      ((as.map fun a => asn1Wrap asn1Set [a.encode]).foldl add built) := by
  induction hlen : s.length using Nat.strong_induction_on generalizing this s built as with
  | _ n ih =>
    rcases text_cases sep s with hspaces | ⟨key, hkey⟩ | ⟨key, value, hpart⟩ |
      ⟨key, value, head, rest, hpart, rfl⟩
    · rw [dnParts_spaces sep hspaces] at has
      cases has
      exact ready_spaces h hspaces
    · rw [dnParts_key sep hkey] at has
      cases has with
      | cons hpart _ =>
        rw [toAttribute_none] at hpart
        cases hpart
    · have hparts := dnParts_part hsep hpart (t := []) nofun
      rw [List.append_nil] at hparts
      rw [hparts] at has
      cases has with
      | cons ha hnil =>
        cases hnil
        rw [toAttribute_some] at ha
        obtain ⟨rdn, hfind, rfl⟩ := Option.map_eq_some_iff.mp ha
        rw [loop_end hzero]
        exact ready_part h hsep hnul hpart hzero hfind (.inr rfl)
    · have hparts := dnParts_part hsep hpart (t := sep :: rest) fun b hb => (Option.some.inj hb).symm
      rw [hparts] at has
      rw [List.mem_append, List.mem_cons, not_or, not_or] at hzero
      cases has with
      | cons ha has =>
        rw [toAttribute_some] at ha
        obtain ⟨rdn, hfind, rfl⟩ := Option.map_eq_some_iff.mp ha
        have hlt : rest.length < n := by
          rw [← hlen, List.length_append, List.length_cons]
          omega
        have hready := ready_part h hsep hnul hpart hzero.1 hfind (.inl rfl)
        rw [loop_sep hzero.1 hnul]
        exact ih rest.length hlt hzero.2.2 hready has rfl

/-- **Without one of them the machine fails**: at a key that is not known, or that is not ended. -/
theorem loop_unknown (hsep : isGap sep = false) (hnul : sep ≠ 0) (hzero : 0 ∉ s)
    (h : Ready this sep built) {part : DnPart} (hmem : part ∈ dnParts sep s)
    (hpart : part.toAttribute = none) :
    (this.loop s).state = .readOid ∨ (this.loop s).status = .notSupported := by
  induction hlen : s.length using Nat.strong_induction_on generalizing this s built with
  | _ n ih =>
    rcases text_cases sep s with hspaces | ⟨key, hkey⟩ | ⟨key, value, hpart'⟩ |
      ⟨key, value, head, rest, hpart', rfl⟩
    · rw [dnParts_spaces sep hspaces] at hmem
      cases hmem
    · left
      rw [loop_end hzero, foldl_isKey h.state (h.sep ▸ hnul) hkey hzero, step]
      dsimp only
      rw [if_pos ⟨by decide, by decide⟩]
    · have hparts := dnParts_part hsep hpart' (t := []) nofun
      rw [List.append_nil] at hparts
      rw [hparts] at hmem
      obtain rfl := List.mem_singleton.mp hmem
      rw [toAttribute_some, Option.map_eq_none_iff] at hpart
      obtain ⟨hstate, hstatus⟩ := unknown_part h hnul hpart' hzero hpart
      right
      rw [loop_end hzero, step, hstate]
      exact hstatus
    · have hparts := dnParts_part hsep hpart' (t := sep :: rest) fun b hb => (Option.some.inj hb).symm
      rw [hparts] at hmem
      rw [List.mem_append, List.mem_cons, not_or, not_or] at hzero
      rw [loop_sep hzero.1 hnul]
      cases hfind : findRdn key with
      | none =>
        obtain ⟨hstate, hstatus⟩ := unknown_part h hnul hpart' hzero.1 hfind
        have hstep : (head.foldl step this).step sep = head.foldl step this := by rw [step, hstate]
        right
        rw [hstep, loop_end hzero.2.2, foldl_unknown hstate, step, hstate]
        exact hstatus
      | some rdn =>
        rcases List.mem_cons.mp hmem with rfl | hmem
        · rw [toAttribute_some, hfind] at hpart
          cases hpart
        · have hlt : rest.length < n := by
            rw [← hlen, List.length_append, List.length_cons]
            omega
          have hready := ready_part h hsep hnul hpart' hzero.1 hfind (.inl rfl)
          exact ih rest.length hlt hzero.2.2 hready hmem rfl

end Parts

end AtodnMachine

/-! ## What is built -/

section Build

open AtodnMachine

theorem foldl_add_room {built : List Chunk × Status} {rdns : List Chunk}
    (h : built.1.length + rdns.length ≤ rdnMax) :
    rdns.foldl add built = (built.1 ++ rdns, built.2) := by
  induction rdns generalizing built with
  | nil => rw [List.foldl_nil, List.append_nil]
  | cons rdn rdns ih =>
    rw [List.length_cons] at h
    have hadd : add built rdn = (built.1 ++ [rdn], built.2) := if_pos (by omega)
    rw [List.foldl_cons, hadd, ih (by rw [List.length_append, List.length_singleton]; omega)]
    simp

theorem foldl_add_full {built : List Chunk × Status} {rdns : List Chunk}
    (hlen : built.1.length ≤ rdnMax)
    (h : rdnMax < built.1.length + rdns.length ∨ built.1.length = rdnMax ∧ built.2 = .outOfRes) :
    (rdns.foldl add built).2 = .outOfRes := by
  induction rdns generalizing built with
  | nil =>
    rw [List.length_nil] at h
    exact h.elim (fun h => absurd h (by omega)) fun h => h.2
  | cons rdn rdns ih =>
    rw [List.length_cons] at h
    rw [List.foldl_cons]
    by_cases hroom : built.1.length < rdnMax
    · have hadd : add built rdn = (built.1 ++ [rdn], built.2) := if_pos hroom
      rw [hadd]
      refine ih (by rw [List.length_append, List.length_singleton]; omega) (.inl ?_)
      rw [List.length_append, List.length_singleton]
      omega
    · have hadd : add built rdn = (built.1, .outOfRes) := if_neg hroom
      rw [hadd]
      exact ih hlen (.inr ⟨by dsimp only; omega, rfl⟩)

/-- The parts of a text, by its separator. -/
def textParts (s : Chunk) : List DnPart := dnParts (dnSource s).1 (dnSource s).2

theorem ready_source {s : Chunk} (hzero : 0 ∉ s) :
    isGap (dnSource s).1 = false ∧ (dnSource s).1 ≠ 0 ∧ 0 ∉ (dnSource s).2 ∧
      ∃ this, Ready this (dnSource s).1 ([], .success) ∧
        (init.loop s).state = (this.loop (dnSource s).2).state ∧
        (init.loop s).rdns = (this.loop (dnSource s).2).rdns ∧
        (init.loop s).status = (this.loop (dnSource s).2).status := by
  obtain ⟨spaces, t, rfl, hspaces, ht⟩ := exists_span (· = 0x20) s
  have hdrop := dropWhile_span hspaces ht
  have hspaces : ∀ b ∈ spaces, b = 0x20 := fun b hb => of_decide_eq_true (hspaces b hb)
  rw [List.mem_append, not_or] at hzero
  rw [loop_append hzero.1, foldl_spaces rfl hspaces, dnSource, hdrop]
  cases t with
  | nil =>
    exact ⟨by decide, by decide, List.not_mem_nil, { init with sep := 0x2c }, ⟨rfl, rfl, rfl, rfl⟩, rfl,
      rfl, rfl⟩
  | cons c t =>
    obtain ⟨hc, hnul⟩ := List.ne_and_not_mem_of_not_mem_cons hzero.2
    have hspace : c ≠ 0x20 := of_decide_eq_false (ht c rfl)
    dsimp only
    rw [loop, if_neg hc.symm]
    by_cases hslash : c = 0x2f
    · rw [if_pos hslash, hslash]
      exact ⟨rfl, by dsimp only; decide, hnul, init.step 0x2f, ⟨rfl, rfl, rfl, rfl⟩, rfl, rfl, rfl⟩
    · have hstep : init.step c = { init with sep := 0x2c }.step c := by
        rw [step_first rfl (fun _ => hslash) hspace hc.symm,
          step_first rfl (fun _ => hslash) hspace hc.symm]
        rfl
      have hloop : { init with sep := 0x2c }.loop (c :: t) =
          ({ init with sep := 0x2c }.step c).loop t := by
        rw [loop, if_neg hc.symm]
      rw [if_neg hslash, hstep, ← hloop]
      exact ⟨rfl, by dsimp only; decide, hzero.2, { init with sep := 0x2c }, ⟨rfl, rfl, rfl, rfl⟩, rfl, rfl,
        rfl⟩

/-- **A text of attributes that are known** is the name with them, if there are not too many. -/
theorem atodn_known {s : Chunk} (hzero : 0 ∉ s) {as : List Attribute}
    (has : List.Forall₂ (fun part a => part.toAttribute = some a) (textParts s) as) :
    atodn s = if as.length ≤ rdnMax then .ok (encodeDn as) else .error .outOfRes := by
  obtain ⟨hsep, hnul, hzero', this, hready, hstate, hrdns, hstatus⟩ := ready_source hzero
  have hend := loop_known hsep hnul hzero' hready has
  have hread : ¬AtodnState.searchOid = .readOid := by decide
  rw [atodn, hstate, hrdns, hstatus, hend.state, hend.rdns, hend.status]
  rw [if_neg hread]
  by_cases hlen : as.length ≤ rdnMax
  · rw [if_pos hlen, foldl_add_room (by rw [List.length_map]; exact (Nat.zero_add _).trans_le hlen)]
    rfl
  · rw [if_neg hlen, foldl_add_full (Nat.zero_le _)
      (.inl (by rw [List.length_map]; exact (not_le.mp hlen).trans_eq (Nat.zero_add _).symm)),
      if_neg (by decide)]

/-- **Any other text is rejected.** -/
theorem atodn_unknown {s : Chunk} (hzero : 0 ∉ s) {part : DnPart} (hmem : part ∈ textParts s)
    (hpart : part.toAttribute = none) : ∃ status, atodn s = .error status := by
  obtain ⟨hsep, hnul, hzero', this, hready, hstate, hrdns, hstatus⟩ := ready_source hzero
  have hend := loop_unknown hsep hnul hzero' hready hmem hpart
  rw [← hstate, ← hstatus] at hend
  unfold atodn
  dsimp only
  rcases hend with hstate | hstatus
  · exact ⟨.invalidArg, by rw [if_pos hstate, if_neg (by decide)]⟩
  · by_cases hread : (init.loop s).state = .readOid
    · exact ⟨.invalidArg, by rw [if_pos hread, if_neg (by decide)]⟩
    · exact ⟨.notSupported, by rw [if_neg hread, hstatus, if_neg (by decide)]⟩

end Build

/-! ## Texts that are written -/

/-- An attribute and a value with spaces: in front, on both sides of '=', and behind. -/
structure DnText where
  rdn : X501Rdn
  value : Chunk
  front : ℕ
  left : ℕ
  right : ℕ
  behind : ℕ

namespace DnText

def text (this : DnText) : Chunk :=
  List.replicate this.front 0x20 ++ this.rdn.name ++ List.replicate this.left 0x20 ++
    0x3d :: (List.replicate this.right 0x20 ++ this.value ++ List.replicate this.behind 0x20)

/-- The attribute is one of the table, and the value has no separator, does not begin or end with a
space, and does not begin with '='. -/
structure Plain (sep : U8) (this : DnText) : Prop where
  known : this.rdn ∈ x501rdns
  separator : sep ∉ this.value
  nul : 0 ∉ this.value
  first : ∀ b ∈ this.value.head?, b ≠ 0x20 ∧ b ≠ 0x3d
  last : ∀ b ∈ this.value.getLast?, b ≠ 0x20

variable {this : DnText} {sep : U8}

theorem findRdn_name : ∀ rdn ∈ x501rdns, findRdn rdn.name = some rdn := by decide +kernel

theorem name_rdn {rdn : X501Rdn} (h : rdn ∈ x501rdns) : rdn.name ≠ [] ∧
    ∀ b ∈ rdn.name, b ≠ 0x20 ∧ b ≠ 0x3d ∧ b ≠ 0x2f ∧ b ≠ 0 := by
  have hnames : (x501rdns.all fun rdn => rdn.name ≠ [] &&
      rdn.name.all fun b => b ≠ 0x20 && b ≠ 0x3d && b ≠ 0x2f && b ≠ 0) = true := by
    decide +kernel
  have hname := List.all_eq_true.mp hnames rdn h
  simpa only [Bool.and_eq_true, List.all_eq_true, decide_eq_true_iff, and_assoc] using hname

theorem isKey_name (h : this.Plain sep) :
    IsKey this.rdn.name (List.replicate this.front 0x20 ++ this.rdn.name) := by
  obtain ⟨hne, hname⟩ := name_rdn h.known
  obtain ⟨c, k, hck⟩ := List.exists_cons_of_ne_nil hne
  rw [hck] at hname ⊢
  obtain ⟨hc, hk⟩ := List.forall_mem_cons.mp hname
  exact ⟨_, c, k, fun b hb => List.eq_of_mem_replicate hb, hc.1,
    fun b hb => isGap_eq_false.mpr ⟨(hk b hb).1, (hk b hb).2.1⟩, rfl, rfl⟩

theorem exists_gap (left : ℕ) (t : Chunk) : ∃ g gaps, isGap g = true ∧ (∀ b ∈ gaps, isGap b = true) ∧
    List.replicate left 0x20 ++ 0x3d :: t = g :: (gaps ++ t) := by
  cases left with
  | zero => exact ⟨0x3d, [], rfl, nofun, rfl⟩
  | succ left =>
    refine ⟨0x20, List.replicate left 0x20 ++ [0x3d], rfl, fun b hb => ?_, by
      simp [List.replicate_succ]⟩
    rcases List.mem_append.mp hb with hb | hb
    · rw [List.eq_of_mem_replicate hb]
      rfl
    · rw [List.mem_singleton.mp hb]
      rfl

theorem rdropWhile_spaces {value : Chunk} (hlast : ∀ b ∈ value.getLast?, b ≠ 0x20) (n : ℕ) :
    (value ++ List.replicate n 0x20).rdropWhile (· = 0x20) = value := by
  have hspaces : ∀ b ∈ List.replicate n (0x20 : U8), decide (b = 0x20) = true := fun b hb =>
    decide_eq_true (List.eq_of_mem_replicate hb)
  have hfirst : ∀ b ∈ value.reverse.head?, decide (b = 0x20) = false := fun b hb => by
    rw [List.head?_reverse] at hb
    exact decide_eq_false (hlast b hb)
  have hreverse : ∀ b ∈ (List.replicate n (0x20 : U8)).reverse, decide (b = 0x20) = true := fun b hb =>
    hspaces b (List.mem_reverse.mp hb)
  rw [List.rdropWhile, List.reverse_append, dropWhile_span hreverse hfirst, List.reverse_reverse]

theorem isPart_text (h : this.Plain sep) (hsep : isGap sep = false) :
    ∃ value, IsPart sep this.rdn.name value this.text ∧
      value.rdropWhile (· = 0x20) = this.value := by
  have hspace : sep ≠ 0x20 := (isGap_eq_false.mp hsep).1
  have hgap (n : ℕ) : ∀ b ∈ List.replicate n (0x20 : U8), isGap b = true := fun b hb => by
    rw [List.eq_of_mem_replicate hb]
    rfl
  have hfirst := h.first
  by_cases hvalue : this.value = []
  · obtain ⟨g, gaps, hg, hgaps, heq⟩ := exists_gap this.left
      (List.replicate this.right 0x20 ++ List.replicate this.behind 0x20)
    refine ⟨[], ⟨_, g, gaps ++ (List.replicate this.right 0x20 ++ List.replicate this.behind 0x20),
      isKey_name h, hg, fun b hb => ?_, nofun, nofun, ?_⟩, by rw [hvalue]; rfl⟩
    · rcases List.mem_append.mp hb with hb | hb
      · exact hgaps b hb
      · exact (List.mem_append.mp hb).elim (hgap _ b) (hgap _ b)
    · rw [text, hvalue, List.append_nil, List.append_nil, List.append_assoc _ _ (0x3d :: _), heq]
  · obtain ⟨g, gaps, hg, hgaps, heq⟩ := exists_gap this.left
      (List.replicate this.right 0x20 ++ this.value ++ List.replicate this.behind 0x20)
    refine ⟨this.value ++ List.replicate this.behind 0x20, ⟨_, g,
      gaps ++ List.replicate this.right 0x20, isKey_name h, hg, fun b hb => ?_, fun b hb => ?_,
      fun b hb => ?_, ?_⟩, rdropWhile_spaces h.last this.behind⟩
    · exact (List.mem_append.mp hb).elim (hgaps b) (hgap _ b)
    · rcases List.mem_append.mp hb with hb | hb
      · exact fun heq => h.separator (heq ▸ hb)
      · rw [List.eq_of_mem_replicate hb]
        exact hspace.symm
    · rw [List.head?_append_of_ne_nil _ hvalue] at hb
      exact isGap_eq_false.mpr (hfirst b hb)
    · rw [text, List.append_assoc _ _ (0x3d :: _), heq]
      simp only [List.append_assoc]

theorem not_mem_text (h : this.Plain sep) : 0 ∉ this.text := by
  have hname : (0 : U8) ∉ this.rdn.name := fun hmem =>
    ((name_rdn h.known).2 0 hmem).2.2.2 rfl
  simpa [text] using And.intro hname h.nul

theorem toAttribute_text (h : this.Plain sep) :
    (⟨this.rdn.name, some this.value⟩ : DnPart).toAttribute =
      some (this.rdn.toAttribute this.value) := by
  rw [AtodnMachine.toAttribute_some, findRdn_name this.rdn h.known]
  rfl

end DnText

section Texts

variable {sep : U8} {ts : List DnText}

/-- **The parts of what is written** with a separator in between. -/
theorem dnParts_join (hsep : isGap sep = false) (h : ∀ t ∈ ts, t.Plain sep) :
    dnParts sep ([sep].intercalate (ts.map DnText.text)) =
      ts.map fun t => ⟨t.rdn.name, some t.value⟩ := by
  induction ts with
  | nil => exact dnParts_spaces sep nofun
  | cons t ts ih =>
    obtain ⟨ht, hts⟩ := List.forall_mem_cons.mp h
    obtain ⟨value, hpart, hvalue⟩ := DnText.isPart_text ht hsep
    cases ts with
    | nil =>
      have hparts := dnParts_part hsep hpart (t := []) nofun
      rw [List.append_nil, hvalue] at hparts
      simpa [List.intercalate] using hparts
    | cons t' ts =>
      have hjoin : [sep].intercalate ((t :: t' :: ts).map DnText.text) =
          t.text ++ sep :: [sep].intercalate ((t' :: ts).map DnText.text) := by
        simp [List.intercalate]
      have hparts := dnParts_part hsep hpart
        (t := sep :: [sep].intercalate ((t' :: ts).map DnText.text)) fun b hb =>
          (Option.some.inj hb).symm
      rw [hjoin, hparts, hvalue]
      exact congrArg (⟨t.rdn.name, some t.value⟩ :: ·) (ih hts)

theorem dnParts_dropWhile (sep : U8) (s : Chunk) :
    dnParts sep (s.dropWhile (· = 0x20)) = dnParts sep s := by
  obtain ⟨spaces, t, rfl, hspaces, ht⟩ := exists_span (· = 0x20) s
  have hself := @dropWhile_span (· = 0x20) [] t nofun ht
  rw [List.nil_append] at hself
  rw [dropWhile_span hspaces ht, dnParts_eq sep t, dnParts_eq sep (spaces ++ t),
    dropWhile_span hspaces ht, hself]

/-- What is joined with ','. -/
def commaText (ts : List DnText) : Chunk := [0x2c].intercalate (ts.map DnText.text)

/-- What is prefixed with '/' each; there may be spaces in front. -/
def slashText (front : ℕ) (ts : List DnText) : Chunk :=
  List.replicate front 0x20 ++ ts.flatMap fun t => 0x2f :: t.text

theorem textParts_comma (h : ∀ t ∈ ts, t.Plain 0x2c) :
    textParts (commaText ts) = ts.map fun t => ⟨t.rdn.name, some t.value⟩ := by
  have hsource : dnSource (commaText ts) = (0x2c, (commaText ts).dropWhile (· = 0x20)) := by
    cases ts with
    | nil => rfl
    | cons t ts =>
      obtain ⟨hne, hname⟩ := DnText.name_rdn (h t List.mem_cons_self).known
      obtain ⟨c, k, hck⟩ := List.exists_cons_of_ne_nil hne
      have hc := hname c (hck ▸ List.mem_cons_self)
      obtain ⟨rest, hrest⟩ : ∃ rest, commaText (t :: ts) =
          List.replicate t.front 0x20 ++ c :: rest := by
        cases ts <;> simp [commaText, List.intercalate, DnText.text, hck]
      have hdrop : (commaText (t :: ts)).dropWhile (· = 0x20) = c :: rest := by
        rw [hrest]
        refine dropWhile_span (fun b hb => decide_eq_true (List.eq_of_mem_replicate hb)) fun b hb => ?_
        rw [← Option.some.inj hb]
        exact decide_eq_false hc.1
      rw [dnSource, hdrop]
      exact if_neg hc.2.2.1
  rw [textParts, hsource, dnParts_dropWhile]
  exact dnParts_join rfl h

theorem textParts_slash (h : ∀ t ∈ ts, t.Plain 0x2f) (hne : ts ≠ []) (front : ℕ) :
    textParts (slashText front ts) = ts.map fun t => ⟨t.rdn.name, some t.value⟩ := by
  have hjoin (t : DnText) (ts : List DnText) : t.text ++ (ts.flatMap fun t => 0x2f :: t.text) =
      [0x2f].intercalate ((t :: ts).map DnText.text) := by
    induction ts generalizing t with
    | nil => simp [List.intercalate]
    | cons t' ts ih =>
      have hnext := ih t'
      rw [List.flatMap_cons, List.cons_append, hnext]
      simp [List.intercalate]
  obtain ⟨t, ts, rfl⟩ := List.exists_cons_of_ne_nil hne
  have hsource : dnSource (slashText front (t :: ts)) =
      (0x2f, [0x2f].intercalate ((t :: ts).map DnText.text)) := by
    have hdrop : (slashText front (t :: ts)).dropWhile (· = 0x20) =
        0x2f :: (t.text ++ ts.flatMap fun t => 0x2f :: t.text) := by
      refine dropWhile_span (fun b hb => decide_eq_true (List.eq_of_mem_replicate hb)) fun b hb => ?_
      rw [← Option.some.inj hb]
      rfl
    rw [dnSource, hdrop, ← hjoin]
    rfl
  rw [textParts, hsource]
  exact dnParts_join rfl h

/-- How attributes are written with a separator. -/
inductive Writes (ts : List DnText) : U8 → Chunk → Prop
  | comma : Writes ts 0x2c (commaText ts)
  | slash (front : ℕ) : Writes ts 0x2f (slashText front ts)

theorem Writes.textParts_eq {s : Chunk} (hs : Writes ts sep s) (h : ∀ t ∈ ts, t.Plain sep)
    (hne : ts ≠ []) : textParts s = ts.map fun t => ⟨t.rdn.name, some t.value⟩ := by
  cases hs with
  | comma => exact textParts_comma h
  | slash front => exact textParts_slash h hne front

theorem Writes.not_mem {s : Chunk} (hs : Writes ts sep s) (h : ∀ t ∈ ts, t.Plain sep) : 0 ∉ s := by
  have htext : ∀ t ∈ ts, (0 : U8) ∉ t.text := fun t ht => DnText.not_mem_text (h t ht)
  cases hs with
  | comma =>
    clear h
    unfold commaText
    induction ts with
    | nil => exact List.not_mem_nil
    | cons t ts ih =>
      obtain ⟨ht, hts⟩ := List.forall_mem_cons.mp htext
      cases ts with
      | nil => simpa [List.intercalate] using ht
      | cons t' ts => simpa [List.intercalate] using And.intro ht (ih hts)
  | slash front =>
    intro hmem
    rcases List.mem_append.mp hmem with hmem | hmem
    · exact absurd (List.eq_of_mem_replicate hmem) (by decide)
    · obtain ⟨t, ht, hmem⟩ := List.mem_flatMap.mp hmem
      rcases List.mem_cons.mp hmem with heq | hmem
      · exact absurd heq (by decide)
      · exact htext t ht hmem

/-- **What was written is accepted**, and what is built has these attributes. -/
theorem atodn_writes {s : Chunk} (hs : Writes ts sep s) (h : ∀ t ∈ ts, t.Plain sep) (hne : ts ≠ [])
    (hlen : ts.length ≤ rdnMax) :
    atodn s = .ok (encodeDn (ts.map fun t => t.rdn.toAttribute t.value)) := by
  have has : List.Forall₂ (fun part a => part.toAttribute = some a) (textParts s)
      (ts.map fun t => t.rdn.toAttribute t.value) := by
    rw [hs.textParts_eq h hne, List.forall₂_map_left_iff, List.forall₂_map_right_iff,
      List.forall₂_same]
    exact fun t ht => DnText.toAttribute_text (h t ht)
  rw [atodn_known (hs.not_mem h) has, if_pos (by rwa [List.length_map])]

end Texts

/-! ## What is accepted -/

/-- A text has an attribute that is not known, or one that is not ended, or too many of them. -/
def Rejected (s : Chunk) : Prop :=
  (∃ part ∈ textParts s, findRdn part.key = none ∨ part.value = none) ∨
    rdnMax < (textParts s).length

theorem atodn_rejected {s : Chunk} (hzero : 0 ∉ s) (h : Rejected s) :
    ∃ status, atodn s = .error status := by
  by_cases hknown : ∀ part ∈ textParts s, part.toAttribute ≠ none
  · have hpart {part : DnPart} (h : part.toAttribute ≠ none) :
        findRdn part.key ≠ none ∧ part.value ≠ none := by
      unfold DnPart.toAttribute at h
      constructor
      · intro hnone
        rw [hnone] at h
        exact h rfl
      · intro hnone
        rw [hnone] at h
        refine h ?_
        cases findRdn part.key <;> rfl
    have hmany : rdnMax < (textParts s).length := by
      refine h.resolve_left ?_
      rintro ⟨part, hmem, hkey | hvalue⟩
      · exact (hpart (hknown part hmem)).1 hkey
      · exact (hpart (hknown part hmem)).2 hvalue
    obtain ⟨as, has⟩ : ∃ as, List.Forall₂ (fun part a => part.toAttribute = some a)
        (textParts s) as := by
      generalize textParts s = parts at hknown
      induction parts with
      | nil => exact ⟨[], .nil⟩
      | cons part parts ih =>
        obtain ⟨hpart, hparts⟩ := List.forall_mem_cons.mp hknown
        obtain ⟨as, has⟩ := ih hparts
        obtain ⟨a, ha⟩ := Option.ne_none_iff_exists'.mp hpart
        exact ⟨a :: as, .cons ha has⟩
    rw [has.length_eq] at hmany
    exact ⟨.outOfRes, by rw [atodn_known hzero has, if_neg (not_le.mpr hmany)]⟩
  · push Not at hknown
    obtain ⟨part, hmem, hnone⟩ := hknown
    exact atodn_unknown hzero hmem hnone

theorem map_rdnList (as : List Attribute) :
    (rdnList as).map (fun rdn => (rdn.oid, rdn.data)) = as.map fun a => (a.oid, a.data) := by
  induction as with
  | nil => rfl
  | cons a as ih => rw [rdnList, List.map_cons, List.map_cons, ih]

/-- A country as it is written, with spaces around '='. -/
def countryText (value : Chunk) : DnText :=
  ⟨⟨ascii "C", [0x55, 0x04, 0x06], asn1PrintableString⟩, value, 0, 1, 1, 0⟩

theorem plain_countryText {sep : U8} {value : Chunk} (hsep : sep ∉ value) (hnul : 0 ∉ value)
    (hfirst : ∀ b ∈ value.head?, b ≠ 0x20 ∧ b ≠ 0x3d) (hlast : ∀ b ∈ value.getLast?, b ≠ 0x20) :
    (countryText value).Plain sep := by
  have hknown : (⟨ascii "C", [0x55, 0x04, 0x06], asn1PrintableString⟩ : X501Rdn) ∈ x501rdns := by
    decide
  exact ⟨hknown, hsep, hnul, hfirst, hlast⟩

theorem asn1SimpleObject_long (tag : U8) {content : Chunk} {n : ℕ} (hn : n < 32)
    (h : content.length = 2 ^ 24 + n) :
    asn1SimpleObject tag content = tag :: 0x83 :: 0 :: 0 :: BitVec.ofNat 8 n :: content := by
  have hcode : ∀ n < 32, asn1CodeLength (2 ^ 24 + n) = [0x83, 0, 0, BitVec.ofNat 8 n] := by decide
  rw [asn1SimpleObject, h, hcode n hn]
  rfl

theorem asn1UnwrapType_long (tag : U8) {n : ℕ} (hn : n < 32) {inner : Chunk} (h : inner.length = n)
    (rest : Chunk) : asn1UnwrapType tag (tag :: 0x83 :: 0 :: 0 :: BitVec.ofNat 8 n :: (inner ++ rest)) =
      some (inner, rest) := by
  have hlong : ¬(0x83 &&& 0x80 : U8) = 0 := by decide
  have hoctets : (0x83 &&& 0x7F : U8).toNat = 3 := by decide
  have hvalue : Bytes.value [0, 0, BitVec.ofNat 8 n] = n := by
    have hzero : (0 : U8).toNat = 0 := rfl
    rw [Bytes.value_cons, Bytes.value_cons, Bytes.value_cons, Bytes.value_nil, hzero,
      BitVec.toNat_ofNat, Nat.mod_eq_of_lt (by omega)]
    simp
  have htake : (0 :: 0 :: BitVec.ofNat 8 n :: (inner ++ rest)).take 3 = [0, 0, BitVec.ofNat 8 n] := rfl
  have hdrop : (0 :: 0 :: BitVec.ofNat 8 n :: (inner ++ rest)).drop 3 = inner ++ rest := rfl
  rw [asn1UnwrapType, asn1Unwrap]
  dsimp only
  rw [if_neg hlong, hoctets, if_neg (by simp)]
  rw [htake, hdrop, hvalue, if_neg (by rw [List.length_append]; omega), ← h, List.take_left, List.drop_left]
  exact if_pos rfl

/-- **A value that is too long is enumerated as an empty one.** -/
theorem rdns_long {value : Chunk} (h : value.length = 2 ^ 24) :
    rdns (encodeDn [⟨[0x55, 0x04, 0x06], asn1PrintableString, value⟩]) =
      [⟨[0x55, 0x04, 0x06], asn1PrintableString, [], false⟩] := by
  have hoid : asn1SimpleObject asn1Oid [0x55, 0x04, 0x06] = [0x06, 0x03, 0x55, 0x04, 0x06] := by decide
  have hvalue := @asn1SimpleObject_long asn1PrintableString value 0 (by norm_num) h
  have hattribute := @asn1SimpleObject_long asn1Sequence ([0x06, 0x03, 0x55, 0x04, 0x06] ++
    asn1PrintableString :: 0x83 :: 0 :: 0 :: BitVec.ofNat 8 0 :: value) 10 (by norm_num) (by simp [h])
  have hset := @asn1SimpleObject_long asn1Set (asn1Sequence :: 0x83 :: 0 :: 0 :: BitVec.ofNat 8 10 ::
    ([0x06, 0x03, 0x55, 0x04, 0x06] ++
      asn1PrintableString :: 0x83 :: 0 :: 0 :: BitVec.ofNat 8 0 :: value)) 15 (by norm_num) (by simp [h])
  have hdn := @asn1SimpleObject_long asn1Sequence (asn1Set :: 0x83 :: 0 :: 0 :: BitVec.ofNat 8 15 ::
    asn1Sequence :: 0x83 :: 0 :: 0 :: BitVec.ofNat 8 10 :: ([0x06, 0x03, 0x55, 0x04, 0x06] ++
      asn1PrintableString :: 0x83 :: 0 :: 0 :: BitVec.ofNat 8 0 :: value)) 20 (by norm_num) (by simp [h])
  have hunwrap := @asn1UnwrapType_long asn1Sequence 20 (by norm_num)
    [asn1Set, 0x83, 0, 0, 15, asn1Sequence, 0x83, 0, 0, 10, 0x06, 0x03, 0x55, 0x04, 0x06,
      asn1PrintableString, 0x83, 0, 0, 0] rfl value
  have hbytes : encodeDn [⟨[0x55, 0x04, 0x06], asn1PrintableString, value⟩] =
      asn1Sequence :: 0x83 :: 0 :: 0 :: BitVec.ofNat 8 20 :: ([asn1Set, 0x83, 0, 0, 15, asn1Sequence,
        0x83, 0, 0, 10, 0x06, 0x03, 0x55, 0x04, 0x06, asn1PrintableString, 0x83, 0, 0, 0] ++ value) := by
    unfold encodeDn Attribute.encode asn1Wrap
    rw [List.map_singleton, List.flatten_singleton, List.flatten_singleton, List.flatten_cons,
      List.flatten_singleton, hoid, hvalue, hattribute, hset, hdn]
    rfl
  rw [rdns, hbytes, hunwrap]
  rfl

end StrongSwan
