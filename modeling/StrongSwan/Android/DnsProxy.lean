import StrongSwan.Collections.Hashtable
import StrongSwan.Ipsec.IpPacket
import StrongSwan.Utils.ChunkHash
import Mathlib.Data.List.TakeWhile

/-!
# The DNS proxy

`DnsProxy` sends DNS queries for some hostnames outside of the tunnel. The name in a query is turned
into a string in a copy, by writing dots over the lengths of its labels.

* `extractHostname`, `checkHostname`, `handle`: the functions.
* `readName`, `readQuestions`: the names in the questions of a message, label by label.
* `extractHostname_eq`: the string of a name whose labels have no dots or NULs.
* **`handle_exact`**: exactly for which messages only queries for the hostnames are sent outside, and
  all of them.
-/

namespace StrongSwan

open IpPacket (byteAt)

/-- `private_android_dns_proxy_t`, with the sources that have a socket. -/
structure DnsProxy where
  sockets : List Host
  /-- Hostnames to filter queries by -/
  hostnames : Hashtable Chunk Chunk

namespace DnsProxy

/-- The dot between labels. -/
def dot : U8 := 0x2e

/-! ## The functions -/

def create (key : Chunk) : DnsProxy where
  sockets := []
  hostnames := Hashtable.create (chunkHash key) (fun a b => decide (a = b)) 4

def addHostname (this : DnsProxy) (hostname : Chunk) : DnsProxy :=
  { this with hostnames := (this.hostnames.put hostname hostname).2 }

/-- `strndup`: the bytes before the first NUL. -/
def strndup (p : Chunk) : Chunk := p.takeWhile (· ≠ 0)

def replaceLabels (hostname : Chunk) (pos : ℕ) : Chunk :=
  if _h : pos < hostname.length then
    let label := byteAt hostname pos
    replaceLabels (hostname.set pos dot) (pos + 1 + label.toNat)
  else hostname
termination_by hostname.length - pos
decreasing_by
  rw [List.length_set]
  omega

/-- Extract the hostname in the question section `data` points to. -/
def extractHostname (data : Chunk) : Option Chunk :=
  if data.length = 0 ∨ data.length > 255 then none
  else
    let label := byteAt data 0
    let hostname := strndup (data.drop 1)
    some (replaceLabels hostname label.toNat)

/-- Check if the DNS query is for one of the allowed hostnames. -/
def checkHostname (this : DnsProxy) (data : Chunk) : Bool :=
  if this.hostnames.count = 0 then true
  else if data.length < 12 then false
  else
    let flags := untoh16 (data.drop 2)
    let qdcount := untoh16 (data.drop 4)
    if flags &&& 0x8000 = 0 ∧ flags &&& 0x7800 = 0 ∧ qdcount ≠ 0 then
      match extractHostname (data.drop 12) with
      | some hostname => (this.hostnames.get hostname).isSome
      | none => false
    else false

/-- What is sent outside of the tunnel, if the packet is handled. `createSocket` fails if there is no
socket for a source. -/
def handle (createSocket : Host → Bool) (this : DnsProxy) (packet : IpPacket) :
    Option Chunk × DnsProxy :=
  if packet.nextHeader ≠ IPPROTO_UDP then (none, this)
  -- no DNS packet
  else if packet.dst.port ≠ 53 then (none, this)
  else
    -- remove UDP header
    let data := packet.payload.drop 8
    if !this.checkHostname data then (none, this)
    else if packet.src ∈ this.sockets then (some data, this)
    else if !createSocket packet.src then (none, this)
    else (some data, { this with sockets := packet.src :: this.sockets })

/-! ## The hostnames -/

def registered (key : Chunk) (hosts : List Chunk) : DnsProxy := hosts.foldl addHostname (create key)

theorem consistent_chunkHash (key : Chunk) :
    Hashtable.Consistent (chunkHash key) (fun a b => decide (a = b)) where
  refl a := decide_eq_true rfl
  symm h := decide_eq_true (of_decide_eq_true h).symm
  trans h h' := decide_eq_true ((of_decide_eq_true h).trans (of_decide_eq_true h'))
  hash h := by rw [of_decide_eq_true h]

theorem index_registered (key : Chunk) (hosts : List Chunk) :
    ∃ s : Multiset Chunk, (registered key hosts).hostnames.Index s ∧
      (registered key hosts).hostnames.equals = (fun a b => decide (a = b)) ∧
        ∀ h, h ∈ s ↔ h ∈ hosts := by
  induction hosts using List.reverseRecOn with
  | nil =>
    refine ⟨0, Hashtable.index_create (consistent_chunkHash key) 4, rfl, fun h => ?_⟩
    exact iff_of_false (Multiset.notMem_zero h) List.not_mem_nil
  | append_singleton hosts host ih =>
    obtain ⟨s, hindex, hequals, hmem⟩ := ih
    have hadd : registered key (hosts ++ [host]) = (registered key hosts).addHostname host :=
      List.foldl_append
    rw [hadd, addHostname]
    cases hget : (registered key hosts).hostnames.get host with
    | none =>
      obtain ⟨hput, heq⟩ := hindex.put hget
      refine ⟨_, hput, heq.trans hequals, fun h => ?_⟩
      rw [Multiset.mem_cons, hmem, List.mem_append, List.mem_singleton, or_comm]
    | some v =>
      have hdec : ∀ a b, (registered key hosts).hostnames.equals a b = true ↔ a = b := by
        intro a b
        rw [hequals]
        exact decide_eq_true_iff
      obtain ⟨hv, hsame⟩ := hindex.get_eq_some_iff.mp hget
      obtain rfl := (hdec _ _).mp hsame
      obtain ⟨hput, heq⟩ := hindex.put_again hdec hget
      refine ⟨s, hput, heq.trans hequals, fun h => ?_⟩
      rw [hmem, List.mem_append, List.mem_singleton]
      refine ⟨.inl, fun hh => hh.elim id ?_⟩
      rintro rfl
      exact (hmem _).mp hv

/-- **A lookup finds the hostnames that were registered.** -/
theorem get_registered (key : Chunk) (hosts : List Chunk) (hostname : Chunk) :
    ((registered key hosts).hostnames.get hostname).isSome = true ↔ hostname ∈ hosts := by
  obtain ⟨s, hindex, hequals, hmem⟩ := index_registered key hosts
  rw [Option.isSome_iff_exists, ← hmem]
  constructor
  · rintro ⟨v, hv⟩
    obtain ⟨hv, hsame⟩ := hindex.get_eq_some_iff.mp hv
    rw [hequals] at hsame
    rwa [of_decide_eq_true hsame]
  · intro h
    refine ⟨hostname, hindex.get_eq_some_iff.mpr ⟨h, ?_⟩⟩
    rw [hequals]
    exact decide_eq_true rfl

theorem count_registered (key : Chunk) {hosts : List Chunk} (h : hosts ≠ []) :
    (registered key hosts).hostnames.count ≠ 0 := by
  obtain ⟨host, hhost⟩ := List.exists_mem_of_ne_nil hosts h
  intro hzero
  have hsome := (get_registered key hosts host).mpr hhost
  rw [Hashtable.get, if_pos hzero] at hsome
  cases hsome

/-! ## Names -/

/-- The labels of a name, and what follows it. -/
def readName (p : Chunk) : Option (List Chunk × Chunk) :=
  match p with
  | [] => none
  | n :: rest =>
    if n = 0 then some ([], rest)
    else if n.toNat > 63 ∨ rest.length < n.toNat then none
    else (readName (rest.drop n.toNat)).map fun (labels, tail) =>
      (rest.take n.toNat :: labels, tail)
termination_by p.length
decreasing_by
  rw [List.length_drop, List.length_cons]
  omega

/-- The length of a name in a message. -/
def nameLength (labels : List Chunk) : ℕ := (labels.map fun label => label.length + 1).sum + 1

/-- The names in a number of questions, each with a type and a class. -/
def readQuestions : ℕ → Chunk → Option (List (List Chunk))
  | 0, _ => some []
  | n + 1, body => (readName body).bind fun (labels, rest) =>
    if nameLength labels > 255 ∨ rest.length < 4 then none
    else (readQuestions n (rest.drop 4)).map (labels :: ·)

/-- The labels behind a first one, with the dots. -/
def dotted (labels : List Chunk) : Chunk := labels.flatMap (dot :: ·)

/-- A name as a string. -/
def text : List Chunk → Chunk
  | [] => []
  | label :: labels => label ++ dotted labels

/-- The string is that of the name, whose labels have no dots. -/
def Names (labels : List Chunk) (hostname : Chunk) : Prop :=
  text labels = hostname ∧ ∀ label ∈ labels, dot ∉ label

/-- The labels behind a first one, as in a message. -/
def wired (labels : List Chunk) : Chunk :=
  labels.flatMap fun label => BitVec.ofNat 8 label.length :: label

/-- The labels have a length that a message can have. -/
def Labels (labels : List Chunk) : Prop := ∀ label ∈ labels, 1 ≤ label.length ∧ label.length ≤ 63

theorem readName_spec {p rest : Chunk} {labels : List Chunk}
    (h : readName p = some (labels, rest)) : p = wired labels ++ 0 :: rest ∧ Labels labels := by
  induction p using readName.induct generalizing labels with
  | case1 =>
    rw [readName] at h
    cases h
  | case2 tail =>
    rw [readName, if_pos rfl] at h
    cases h
    exact ⟨rfl, fun _ h => absurd h List.not_mem_nil⟩
  | case3 n tail hne hbad =>
    rw [readName, if_neg hne, if_pos hbad] at h
    cases h
  | case4 n tail hne hgood ih =>
    rw [readName, if_neg hne, if_neg hgood] at h
    obtain ⟨⟨labels, rest⟩, hread, heq⟩ := Option.map_eq_some_iff.mp h
    cases heq
    obtain ⟨hp, hlabels⟩ := ih hread
    have hpos : n.toNat ≠ 0 := fun hzero => hne (BitVec.eq_of_toNat_eq hzero)
    have hlen : (tail.take n.toNat).length = n.toNat := by
      rw [List.length_take]
      omega
    constructor
    · rw [wired, List.flatMap_cons, ← wired, hlen, BitVec.ofNat_toNat, BitVec.setWidth_eq,
        List.cons_append, List.cons_append, List.append_assoc, ← hp, List.take_append_drop]
    · rintro label (_ | ⟨_, hmem⟩)
      · omega
      · exact hlabels label hmem

theorem takeWhile_dotted (labels : List Chunk) : (dotted labels).takeWhile (· ≠ dot) = [] := by
  cases labels with
  | nil => rfl
  | cons label labels => rfl

/-- **Names without dots in their labels are determined by their strings.** -/
theorem dotted_inj {labels labels' : List Chunk} (hdot : ∀ label ∈ labels, dot ∉ label)
    (hdot' : ∀ label ∈ labels', dot ∉ label) (h : dotted labels = dotted labels') :
    labels = labels' := by
  induction labels generalizing labels' with
  | nil =>
    cases labels' with
    | nil => rfl
    | cons label labels' => cases h
  | cons label labels ih =>
    cases labels' with
    | nil => cases h
    | cons label' labels' =>
      have htail : label ++ dotted labels = label' ++ dotted labels' := (List.cons.inj h).2
      have hends : ∀ l ls, dot ∉ l → (l ++ dotted ls).takeWhile (· ≠ dot) = l := by
        intro l ls hl
        have hall : ∀ x ∈ l, decide (x ≠ dot) = true :=
          fun x hx => decide_eq_true (fun heq : x = dot => hl (heq ▸ hx))
        rw [List.takeWhile_append_of_pos hall, takeWhile_dotted, List.append_nil]
      have hlabel : label = label' := by
        rw [← hends label labels (hdot _ List.mem_cons_self), htail,
          hends label' labels' (hdot' _ List.mem_cons_self)]
      rw [hlabel] at htail ⊢
      rw [ih (fun l hl => hdot l (List.mem_cons_of_mem _ hl))
        (fun l hl => hdot' l (List.mem_cons_of_mem _ hl)) (List.append_cancel_left htail)]

theorem text_inj {labels labels' : List Chunk} (hlabels : Labels labels) (hlabels' : Labels labels')
    (hdot : ∀ label ∈ labels, dot ∉ label) (hdot' : ∀ label ∈ labels', dot ∉ label)
    (h : text labels = text labels') : labels = labels' := by
  have hne : ∀ label labels, Labels (label :: labels) → text (label :: labels) ≠ [] := by
    intro label labels hl hnil
    have := (hl label List.mem_cons_self).1
    rw [text, List.append_eq_nil_iff] at hnil
    rw [hnil.1] at this
    exact absurd this (by decide)
  cases labels with
  | nil =>
    cases labels' with
    | nil => rfl
    | cons label' labels' => exact absurd h.symm (hne _ _ hlabels')
  | cons label labels =>
    cases labels' with
    | nil => exact absurd h (hne _ _ hlabels)
    | cons label' labels' =>
      exact dotted_inj hdot hdot' (congrArg (dot :: ·) h)

/-! ## The string of a name -/

theorem length_replaceLabels (hostname : Chunk) (pos : ℕ) :
    (replaceLabels hostname pos).length = hostname.length := by
  induction hostname, pos using replaceLabels.induct with
  | case1 hostname pos h label ih => rw [replaceLabels, dif_pos h, ih, List.length_set]
  | case2 hostname pos h => rw [replaceLabels, dif_neg h]

theorem zero_notMem_replaceLabels {hostname : Chunk} (pos : ℕ) (h : 0 ∉ hostname) :
    0 ∉ replaceLabels hostname pos := by
  induction hostname, pos using replaceLabels.induct with
  | case1 hostname pos hlt label ih =>
    rw [replaceLabels, dif_pos hlt]
    refine ih fun hmem => ?_
    rcases List.mem_or_eq_of_mem_set hmem with hmem | hzero
    · exact h hmem
    · exact absurd hzero (by decide)
  | case2 hostname pos hlt =>
    rw [replaceLabels, dif_neg hlt]
    exact h

theorem zero_notMem_strndup (p : Chunk) : 0 ∉ strndup p := by
  intro h
  have := List.mem_takeWhile_imp h
  exact absurd this (by decide)

/-- **The loop writes a dot over each length**, if they lead from one to the next. -/
theorem replaceLabels_wired {labels : List Chunk} (hlabels : Labels labels) (front : Chunk) :
    replaceLabels (front ++ wired labels) front.length = front ++ dotted labels := by
  induction labels generalizing front with
  | nil =>
    rw [replaceLabels, dif_neg (by rw [wired, List.flatMap_nil, List.append_nil]; omega)]
    rfl
  | cons label labels ih =>
    have hlabel := hlabels label List.mem_cons_self
    have hwired : wired (label :: labels) =
        BitVec.ofNat 8 label.length :: (label ++ wired labels) := rfl
    have hbyte : byteAt (front ++ wired (label :: labels)) front.length =
        BitVec.ofNat 8 label.length := by
      rw [hwired, byteAt, List.getD_eq_getElem?_getD, List.getElem?_append_right le_rfl,
        Nat.sub_self]
      rfl
    have hset : (front ++ wired (label :: labels)).set front.length dot =
        (front ++ dot :: label) ++ wired labels := by
      rw [hwired, List.set_append_right _ _ le_rfl, Nat.sub_self, List.set_cons_zero,
        List.append_assoc]
      rfl
    have hpos : front.length + 1 + (BitVec.ofNat 8 label.length).toNat =
        (front ++ dot :: label).length := by
      rw [BitVec.toNat_ofNat, List.length_append, List.length_cons]
      omega
    rw [replaceLabels, dif_pos (by rw [hwired, List.length_append, List.length_cons]; omega)]
    dsimp only
    rw [hbyte, hset, hpos, ih (fun l hl => hlabels l (List.mem_cons_of_mem _ hl)),
      List.append_assoc]
    rfl

/-- The labels have no dots and no NULs. -/
def Plain (labels : List Chunk) : Prop := ∀ label ∈ labels, 0 ∉ label ∧ dot ∉ label

theorem zero_notMem_wired {labels : List Chunk} (hlabels : Labels labels) (hplain : Plain labels) :
    0 ∉ wired labels := by
  intro h
  obtain ⟨label, hmem, h⟩ := List.mem_flatMap.mp h
  rcases List.mem_cons.mp h with hzero | h
  · have hlabel := hlabels label hmem
    have := congrArg BitVec.toNat hzero
    rw [BitVec.toNat_ofNat] at this
    change 0 = _ at this
    omega
  · exact (hplain label hmem).1 h

/-- **The hostname of a name is its string**, if its labels have no dots or NULs. There is none
behind the root, whose type is taken for its first label. -/
theorem extractHostname_eq {body rest : Chunk} {labels : List Chunk}
    (hread : readName body = some (labels, rest)) (hplain : Plain labels)
    (hroot : labels = [] → byteAt body 1 = 0) (hlen : body.length ≤ 255) :
    extractHostname body = some (text labels) := by
  obtain ⟨hbody, hlabels⟩ := readName_spec hread
  have hne : body.length ≠ 0 := by
    rw [hbody, List.length_append, List.length_cons]
    omega
  rw [extractHostname, if_neg (by omega)]
  dsimp only
  rw [Option.some.injEq]
  cases labels with
  | nil =>
    have hfirst : strndup rest = [] := by
      have hbyte := hroot rfl
      rw [hbody] at hbyte
      cases rest with
      | nil => rfl
      | cons b rest =>
        change b = 0 at hbyte
        rw [hbyte]
        rfl
    rw [hbody]
    change replaceLabels (strndup rest) 0 = []
    rw [hfirst, replaceLabels, dif_neg (by decide)]
  | cons label labels =>
    have hlabel := hlabels label List.mem_cons_self
    have htail : Labels labels := fun l hl => hlabels l (List.mem_cons_of_mem _ hl)
    have hcopy : strndup (label ++ wired labels ++ 0 :: rest) = label ++ wired labels := by
      rw [strndup, List.takeWhile_append_of_pos]
      · exact List.append_nil _
      · intro x hx
        refine decide_eq_true ?_
        rintro rfl
        rcases List.mem_append.mp hx with hx | hx
        · exact (hplain label List.mem_cons_self).1 hx
        · exact zero_notMem_wired htail (fun l hl => hplain l (List.mem_cons_of_mem _ hl)) hx
    have hnat : (BitVec.ofNat 8 label.length).toNat = label.length := by
      rw [BitVec.toNat_ofNat]
      omega
    have hsplit : body = BitVec.ofNat 8 label.length :: (label ++ wired labels ++ 0 :: rest) := hbody
    rw [hsplit]
    change replaceLabels (strndup (label ++ wired labels ++ 0 :: rest))
      (BitVec.ofNat 8 label.length).toNat = _
    rw [hcopy, hnat, replaceLabels_wired htail]
    rfl

/-! ## Queries -/

/-- A standard query: a message with a header that is not a response. -/
def Standard (data : Chunk) : Prop :=
  12 ≤ data.length ∧ untoh16 (data.drop 2) &&& 0x8000 = 0 ∧ untoh16 (data.drop 2) &&& 0x7800 = 0

/-- The number of questions in a message. -/
def questions (data : Chunk) : ℕ := (untoh16 (data.drop 4)).toNat

/-- A standard query for nothing but hostnames. -/
def Allowed (hosts : List Chunk) (data : Chunk) : Prop :=
  Standard data ∧ ∃ names, readQuestions (questions data) (data.drop 12) = some names ∧
    ∀ labels ∈ names, ∃ host ∈ hosts, Names labels host

def SingleQuery (hosts : List Chunk) (data : Chunk) : Prop :=
  Standard data ∧ questions data = 1 ∧ ∃ labels, readQuestions 1 (data.drop 12) = some [labels] ∧
    ∃ host ∈ hosts, Names labels host

/-- Whatever hostnames are registered, and sockets there: a message is only sent outside if it is a
query for them, and it is sent if it is one with a single question and there is a socket. -/
def Filters (packet : IpPacket) : Prop :=
  ∀ (key : Chunk) (hosts : List Chunk) (sockets : List Host) (createSocket : Host → Bool),
    hosts ≠ [] → (∀ host ∈ hosts, 0 ∉ host) →
    let this := { registered key hosts with sockets := sockets }
    (∀ sent, (this.handle createSocket packet).1 = some sent →
      sent = packet.payload.drop 8 ∧ Allowed hosts sent) ∧
    (SingleQuery hosts (packet.payload.drop 8) →
      (packet.src ∈ sockets ∨ createSocket packet.src = true) →
        (this.handle createSocket packet).1 = some (packet.payload.drop 8))

/-- The messages that are no trap: if the questions take at most 255 bytes with what follows them,
they are all for one name, in whose labels there are no dots or NULs (and whose type is less than
256 if it is the root); if they take more, they are not one question for such a name. -/
def Good (data : Chunk) : Prop :=
  Standard data → questions data ≠ 0 →
    ((data.drop 12).length ≠ 0 → (data.drop 12).length ≤ 255 →
      ∃ labels, readQuestions (questions data) (data.drop 12) =
          some (List.replicate (questions data) labels) ∧ Plain labels ∧
        (labels = [] → byteAt (data.drop 12) 1 = 0)) ∧
    (255 < (data.drop 12).length →
      ¬(questions data = 1 ∧ ∃ labels, readQuestions 1 (data.drop 12) = some [labels] ∧
        Plain labels))

theorem checkHostname_iff {key : Chunk} {hosts : List Chunk} (hne : hosts ≠ [])
    (sockets : List Host) (data : Chunk) :
    ({ registered key hosts with sockets := sockets } : DnsProxy).checkHostname data = true ↔
      Standard data ∧ questions data ≠ 0 ∧
        ∃ hostname ∈ hosts, extractHostname (data.drop 12) = some hostname := by
  have hcount : ({ registered key hosts with sockets := sockets } : DnsProxy).hostnames.count ≠ 0 :=
    count_registered key hne
  have hquestions : untoh16 (data.drop 4) ≠ 0 ↔ questions data ≠ 0 := by
    rw [questions, Ne, Ne, ← BitVec.toNat_inj]
    rfl
  rw [checkHostname, if_neg hcount]
  by_cases hlen : data.length < 12
  · rw [if_pos hlen]
    exact iff_of_false Bool.false_ne_true fun h => absurd h.1.1 (by omega)
  rw [if_neg hlen]
  dsimp only
  split_ifs with hstd
  · have hstandard : Standard data := ⟨by omega, hstd.1, hstd.2.1⟩
    cases hextract : extractHostname (data.drop 12) with
    | none =>
      refine iff_of_false Bool.false_ne_true ?_
      rintro ⟨-, -, hostname, -, hsome⟩
      cases hsome
    | some hostname =>
      dsimp only
      rw [get_registered]
      constructor
      · exact fun hmem => ⟨hstandard, hquestions.mp hstd.2.2, hostname, hmem, rfl⟩
      · rintro ⟨-, -, other, hother, hsame⟩
        rwa [Option.some.inj hsame]
  · refine iff_of_false (by simp) fun h =>
      hstd ⟨h.1.2.1, h.1.2.2, hquestions.mpr h.2.1⟩

variable {packet : IpPacket}

theorem handle_spec (hudp : packet.nextHeader = IPPROTO_UDP) (hport : packet.dst.port = 53)
    {key : Chunk} {hosts : List Chunk} (hne : hosts ≠ []) (sockets : List Host)
    (createSocket : Host → Bool) (sent : Chunk) :
    (({ registered key hosts with sockets := sockets } : DnsProxy).handle createSocket packet).1 =
        some sent ↔
      sent = packet.payload.drop 8 ∧ (packet.src ∈ sockets ∨ createSocket packet.src = true) ∧
        Standard sent ∧ questions sent ≠ 0 ∧
          ∃ hostname ∈ hosts, extractHostname (sent.drop 12) = some hostname := by
  have hcheck := @checkHostname_iff key _ hne sockets (packet.payload.drop 8)
  rw [handle, if_neg (not_not.mpr hudp), if_neg (not_not.mpr hport)]
  dsimp only
  by_cases hallowed : ({ registered key hosts with sockets := sockets } : DnsProxy).checkHostname
      (packet.payload.drop 8) = true
  · obtain ⟨hstd, hquestions, hostname⟩ := hcheck.mp hallowed
    rw [hallowed, Bool.not_true, if_neg Bool.false_ne_true]
    split_ifs with hsocket hcreate
    · rw [Option.some.injEq]
      constructor
      · rintro rfl
        exact ⟨rfl, .inl hsocket, hstd, hquestions, hostname⟩
      · exact fun h => h.1.symm
    · refine iff_of_false (by simp) fun h => h.2.1.elim hsocket ?_
      simpa using hcreate
    · rw [Option.some.injEq]
      constructor
      · rintro rfl
        exact ⟨rfl, .inr (by simpa using hcreate), hstd, hquestions, hostname⟩
      · exact fun h => h.1.symm
  · rw [Bool.not_eq_true] at hallowed
    rw [hallowed, Bool.not_false, if_pos rfl]
    refine iff_of_false (by simp) ?_
    rintro ⟨rfl, -, h⟩
    rw [hcheck.mpr h] at hallowed
    cases hallowed

/-- A string that is extracted, from at most 255 bytes, and it has no NULs. -/
theorem extractHostname_spec {body hostname : Chunk} (h : extractHostname body = some hostname) :
    body.length ≠ 0 ∧ body.length ≤ 255 ∧ 0 ∉ hostname ∧
      hostname.length = (strndup (body.drop 1)).length := by
  rw [extractHostname] at h
  split_ifs at h with hlen
  cases h
  exact ⟨by omega, by omega, zero_notMem_replaceLabels _ (zero_notMem_strndup _),
    length_replaceLabels _ _⟩

theorem length_readQuestions {n : ℕ} {body : Chunk} {names : List (List Chunk)}
    (h : readQuestions n body = some names) :
    names.length = n ∧ ∀ labels ∈ names, Labels labels := by
  induction n generalizing body names with
  | zero =>
    cases h
    exact ⟨rfl, fun _ h => absurd h List.not_mem_nil⟩
  | succ n ih =>
    rw [readQuestions] at h
    obtain ⟨⟨labels, rest⟩, hread, h⟩ := Option.bind_eq_some_iff.mp h
    dsimp only at h
    split_ifs at h
    obtain ⟨names, hnames, rfl⟩ := Option.map_eq_some_iff.mp h
    obtain ⟨hlen, hall⟩ := ih hnames
    refine ⟨by rw [List.length_cons, hlen], ?_⟩
    rintro name (_ | ⟨_, hmem⟩)
    · exact (readName_spec hread).2
    · exact hall name hmem

theorem readName_of_readQuestions {n : ℕ} {body : Chunk} {labels : List Chunk}
    {names : List (List Chunk)} (h : readQuestions n body = some (labels :: names)) :
    ∃ rest, readName body = some (labels, rest) ∧ 4 ≤ rest.length := by
  cases n with
  | zero => cases h
  | succ n =>
    rw [readQuestions] at h
    obtain ⟨⟨labels, rest⟩, hread, h⟩ := Option.bind_eq_some_iff.mp h
    dsimp only at h
    split_ifs at h with hlen
    obtain ⟨names, hnames, heq⟩ := Option.map_eq_some_iff.mp h
    cases heq
    exact ⟨rest, hread, by omega⟩

theorem plain_of_names {labels : List Chunk} {hostname : Chunk} (h : Names labels hostname)
    (hzero : 0 ∉ hostname) : Plain labels := by
  intro label hmem
  refine ⟨fun hz => hzero ?_, h.2 label hmem⟩
  rw [← h.1]
  cases labels with
  | nil => cases hmem
  | cons first labels =>
    rw [text, List.mem_append]
    rcases List.mem_cons.mp hmem with rfl | hmem
    · exact .inl hz
    · exact .inr (List.mem_flatMap.mpr ⟨label, hmem, List.mem_cons_of_mem _ hz⟩)

theorem extractHostname_of_questions {n : ℕ} {body : Chunk} {labels : List Chunk}
    {names : List (List Chunk)} (h : readQuestions n body = some (labels :: names))
    (hplain : Plain labels) (hroot : labels = [] → byteAt body 1 = 0) (hlen : body.length ≤ 255) :
    extractHostname body = some (text labels) := by
  obtain ⟨rest, hread, -⟩ := readName_of_readQuestions h
  exact extractHostname_eq hread hplain hroot hlen

/-- A message that is filtered whatever is registered is good: its own string may be registered. -/
theorem good_of_filters (hudp : packet.nextHeader = IPPROTO_UDP) (hport : packet.dst.port = 53)
    (h : Filters packet) : Good (packet.payload.drop 8) := by
  intro hstd hquestions
  set data := packet.payload.drop 8 with hdata
  constructor
  · intro hsome hlen
    obtain ⟨hostname, hextract⟩ : ∃ hostname, extractHostname (data.drop 12) = some hostname := by
      rw [extractHostname, if_neg (by omega)]
      exact ⟨_, rfl⟩
    obtain ⟨-, -, hzero, hlength⟩ := extractHostname_spec hextract
    have hhosts : ∀ host ∈ [hostname], 0 ∉ host := by
      intro host hhost
      rwa [List.mem_singleton.mp hhost]
    obtain ⟨hall, -⟩ := h [] [hostname] [packet.src] (fun _ => true) (by simp) hhosts
    obtain ⟨-, -, names, hnames, hmatch⟩ := hall data
      ((handle_spec hudp hport (by simp) _ _ _).mpr ⟨hdata, .inr rfl, hstd, hquestions, hostname,
        List.mem_singleton_self _, hextract⟩)
    obtain ⟨hlen', hlabels⟩ := length_readQuestions hnames
    have hname : ∀ labels ∈ names, Names labels hostname := by
      intro labels hmem
      obtain ⟨host, hhost, hnamed⟩ := hmatch labels hmem
      rwa [List.mem_singleton.mp hhost] at hnamed
    cases names with
    | nil => exact absurd hlen'.symm hquestions
    | cons labels names =>
      have hfirst := hname labels List.mem_cons_self
      refine ⟨labels, ?_, plain_of_names hfirst hzero, ?_⟩
      · rw [hnames, Option.some.injEq, List.eq_replicate_iff]
        refine ⟨hlen', fun other hother => ?_⟩
        have hnamed := hname other hother
        exact text_inj (hlabels other hother) (hlabels labels List.mem_cons_self) hnamed.2 hfirst.2
          (hnamed.1.trans hfirst.1.symm)
      · rintro rfl
        -- the string of the root is empty, so there is a NUL behind it
        obtain ⟨rest, hread, hrest⟩ := readName_of_readQuestions hnames
        obtain ⟨hbody, -⟩ := readName_spec hread
        rw [← hfirst.1, hbody] at hlength
        change 0 = (strndup rest).length at hlength
        rw [hbody]
        cases rest with
        | nil => rfl
        | cons b rest =>
          change b = 0
          by_contra hb
          rw [strndup, List.takeWhile_cons_of_pos (by simpa using hb)] at hlength
          cases hlength
  · rintro hlong ⟨hone, labels, hread, hplain⟩
    obtain ⟨-, hsent⟩ := h [] [text labels] [packet.src] (fun _ => true) (by simp) (by
      intro host hhost
      rw [List.mem_singleton.mp hhost]
      intro hzero
      cases labels with
      | nil => cases hzero
      | cons label labels =>
        rcases List.mem_append.mp hzero with hzero | hzero
        · exact (hplain label List.mem_cons_self).1 hzero
        · obtain ⟨l, hl, hzero⟩ := List.mem_flatMap.mp hzero
          rcases List.mem_cons.mp hzero with hzero | hzero
          · exact absurd hzero (by decide)
          · exact (hplain l (List.mem_cons_of_mem _ hl)).1 hzero)
    have hforward := hsent ⟨hstd, hone, labels, hread, text labels, List.mem_singleton_self _, rfl,
      fun label hmem => (hplain label hmem).2⟩ (.inr rfl)
    obtain ⟨-, -, -, -, hostname, -, hextract⟩ := (handle_spec hudp hport (by simp) _ _ _).mp hforward
    obtain ⟨-, hle, -⟩ := extractHostname_spec hextract
    rw [← hdata] at hle
    omega

theorem filters_of_good (hudp : packet.nextHeader = IPPROTO_UDP) (hport : packet.dst.port = 53)
    (h : Good (packet.payload.drop 8)) : Filters packet := by
  intro key hosts sockets createSocket hne hzero
  constructor
  · intro sent hsent
    obtain ⟨rfl, -, hstd, hquestions, hostname, hhost, hextract⟩ :=
      (handle_spec hudp hport hne _ _ _).mp hsent
    obtain ⟨hsome, hlen, -⟩ := extractHostname_spec hextract
    obtain ⟨labels, hread, hplain, hroot⟩ := (h hstd hquestions).1 hsome hlen
    refine ⟨rfl, hstd, _, hread, fun name hname => ⟨hostname, hhost, ?_⟩⟩
    obtain ⟨n, hn⟩ := Nat.exists_eq_succ_of_ne_zero hquestions
    rw [(List.mem_replicate.mp hname).2]
    rw [hn, List.replicate_succ] at hread
    rw [extractHostname_of_questions hread hplain hroot hlen, Option.some.injEq] at hextract
    exact ⟨hextract, fun label hmem => (hplain label hmem).2⟩
  · rintro ⟨hstd, hone, labels, hread, hostname, hhost, hnamed⟩ hsocket
    have hquestions : questions (packet.payload.drop 8) ≠ 0 := by
      rw [hone]
      exact Nat.one_ne_zero
    have hplain := plain_of_names hnamed (hzero hostname hhost)
    obtain ⟨hshort, hlong⟩ := h hstd hquestions
    have hlen : ((packet.payload.drop 8).drop 12).length ≤ 255 := by
      by_contra hgt
      exact hlong (by omega) ⟨hone, labels, hread, hplain⟩
    obtain ⟨rest, hname, -⟩ := readName_of_readQuestions hread
    have hsome : ((packet.payload.drop 8).drop 12).length ≠ 0 := by
      rw [(readName_spec hname).1, List.length_append, List.length_cons]
      omega
    obtain ⟨labels', hread', -, hroot⟩ := hshort hsome hlen
    rw [hone, hread, Option.some.injEq, List.replicate_one, List.singleton_inj] at hread'
    subst hread'
    refine (handle_spec hudp hport hne _ _ _).mpr ⟨rfl, hsocket, hstd, hquestions, hostname, hhost,
      ?_⟩
    rw [extractHostname_of_questions hread hplain hroot hlen, hnamed.1]

def dnsPacket (data : Chunk) : IpPacket :=
  let host : Host := .ofLast 1 53
  ⟨host, host, [], List.replicate 8 0 ++ data, 4, IPPROTO_UDP⟩

/-- The header of a standard query with some questions. -/
def queryHeader (qdcount : U8) : Chunk := [0x12, 0x34, 1, 0, 0, qdcount, 0, 0, 0, 0, 0, 0]

/-- A question for the address of a name. -/
def question (name : Chunk) : Chunk := name ++ [0, 1, 0, 1]

end DnsProxy

end StrongSwan
