import StrongSwan.Lib.System
import StrongSwan.Collections.Hashtable
import StrongSwan.Ipsec.Policy

/-!
# Reqids of the kernel interface

`KernelInterface` maps traffic selectors and marks to reqids. An entry lies in two hash tables, one
by its reqid and one by its traffic selectors, and counts the references to it.

* `allocReqid`, `releaseReqid`: take a reference, give one back.
* `hashReqid`, `hashReqidByTs`: the hashes of the two tables, and what equality of entries means there.
* **`equalsReqidByTs_copied`**: entries are equal by traffic selectors if they are for one policy.
-/

namespace StrongSwan

/-- `chunk_from_thing` of a mark -/
def Mark.chunk (this : Mark) : Chunk := chunkFromThing this.value ++ chunkFromThing this.mask

/-- `reqid_entry_t`, less the references to it, which `KernelInterface` has. -/
structure ReqidEntry where
  /-- where the entry lies -/
  address : ℕ
  /-- allocated reqid -/
  reqid : U32
  /-- inbound mark used for SA -/
  markIn : Mark
  /-- outbound mark used for SA -/
  markOut : Mark
  /-- local traffic selectors -/
  local_ : List TrafficSelector
  /-- remote traffic selectors -/
  remote : List TrafficSelector
  deriving DecidableEq

/-! ## Keys of the tables -/

def hashReqid (key : Chunk) (entry : ReqidEntry) : U32 :=
  chunkHashInc key (chunkFromThing entry.reqid) <|
    chunkHashInc key entry.markIn.chunk <| chunkHash key entry.markOut.chunk

def equalsReqid (a b : ReqidEntry) : Bool :=
  a.reqid = b.reqid &&
    a.markIn.value = b.markIn.value &&
    a.markIn.mask = b.markIn.mask &&
    a.markOut.value = b.markOut.value &&
    a.markOut.mask = b.markOut.mask

def hashTsArray (key : Chunk) (array : List TrafficSelector) (hash : U32) : U32 :=
  array.foldl (fun hash ts => ts.hash key hash) hash

/-- Hash an entry using traffic selectors as key. -/
def hashReqidByTs (key : Chunk) (entry : ReqidEntry) : U32 :=
  hashTsArray key entry.local_ <| hashTsArray key entry.remote <|
    chunkHashInc key entry.markIn.chunk <| chunkHash key entry.markOut.chunk

/-- Compare two arrays with traffic selectors for equality. -/
def tsArrayEquals (a b : List TrafficSelector) : Bool :=
  a.length = b.length && (a.zip b).all fun (tsa, tsb) => tsa.equals tsb

def equalsReqidByTs (a b : ReqidEntry) : Bool :=
  tsArrayEquals a.local_ b.local_ &&
    tsArrayEquals a.remote b.remote &&
    a.markIn.value = b.markIn.value &&
    a.markIn.mask = b.markIn.mask &&
    a.markOut.value = b.markOut.value &&
    a.markOut.mask = b.markOut.mask

/-- An array from copied traffic selector list items. -/
def arrayFromTsList (list : List TrafficSelector) : List TrafficSelector :=
  list.map TrafficSelector.clone

/-! ## The kernel interface -/

/-- The tables of `private_kernel_interface_t`, the counter of `alloc_reqid`, and the references to
the entry at an address. -/
structure KernelInterface where
  /-- by reqid -/
  reqids : Hashtable ReqidEntry ReqidEntry
  /-- by traffic selectors -/
  reqidsByTs : Hashtable ReqidEntry ReqidEntry
  counter : U32
  refs : ℕ → U32
  /-- where the next entry is allocated -/
  next : ℕ

/-- `kernel_interface_create`, with the key of the hashes -/
def kernelInterfaceCreate (key : Chunk) : KernelInterface where
  reqids := .create (hashReqid key) equalsReqid 8
  reqidsByTs := .create (hashReqidByTs key) equalsReqidByTs 8
  counter := 0
  refs := fun _ => 0
  next := 0

/-- The arguments of `alloc_reqid`. -/
structure AllocReqid where
  localTs : List TrafficSelector
  remoteTs : List TrafficSelector
  markIn : Mark
  markOut : Mark
  reqid : U32
  deriving DecidableEq

/-- The arguments of `release_reqid`. -/
structure ReqidRef where
  reqid : U32
  markIn : Mark
  markOut : Mark
  deriving DecidableEq

namespace KernelInterface

/-- `entry->refs++` -/
def addRef (this : KernelInterface) (entry : ReqidEntry) : KernelInterface :=
  { this with refs := Function.update this.refs entry.address (this.refs entry.address + 1) }

/-- The template: a new entry without references, at `address`. -/
def template (address : ℕ) (args : AllocReqid) : ReqidEntry where
  address := address
  reqid := args.reqid
  markIn := args.markIn
  markOut := args.markOut
  local_ := arrayFromTsList args.localTs
  remote := arrayFromTsList args.remoteTs

/-- Allocate the template. -/
def allocate (this : KernelInterface) : KernelInterface :=
  { this with refs := Function.update this.refs this.next 0, next := this.next + 1 }

/-- Put a new entry into both tables. -/
def putEntry (this : KernelInterface) (entry : ReqidEntry) : KernelInterface :=
  { this with
    reqidsByTs := (this.reqidsByTs.put entry entry).2
    reqids := (this.reqids.put entry entry).2 }

/-- `alloc_reqid`: the status, the reqid of the caller, and the kernel interface. -/
def allocReqid (this : KernelInterface) (args : AllocReqid) : Status × U32 × KernelInterface :=
  let tmpl := template this.next args
  let this := this.allocate
  -- search by reqid if given
  match if tmpl.reqid ≠ 0 then this.reqids.get tmpl else none with
  | some entry =>
    -- no traffic selector match is required for explicit reqids
    (.success, args.reqid, this.addRef entry)
  | none =>
    -- search by traffic selectors
    match this.reqidsByTs.get tmpl with
    | some entry => (.success, entry.reqid, this.addRef entry)
    | none =>
      -- none found, create a new entry, allocating a reqid
      let counter := this.counter + 1
      let entry := { tmpl with reqid := counter }
      let this := { this with counter := counter }.putEntry entry
      (.success, entry.reqid, this.addRef entry)

/-- `release_reqid`; the template lies on the stack. -/
def releaseReqid (this : KernelInterface) (ref : ReqidRef) : Status × KernelInterface :=
  let tmpl : ReqidEntry := ⟨this.next, ref.reqid, ref.markIn, ref.markOut, [], []⟩
  match this.reqids.remove tmpl with
  | (none, reqids) => (.notFound, { this with reqids := reqids })
  | (some entry, reqids) =>
    let refs := this.refs entry.address - 1
    let this := { this with reqids := reqids, refs := Function.update this.refs entry.address refs }
    if refs = 0 then
      match this.reqidsByTs.remove entry with
      | (some _, reqidsByTs) => (.success, { this with reqidsByTs := reqidsByTs })
      | (none, reqidsByTs) => (.notFound, { this with reqidsByTs := reqidsByTs })
    else (.success, { this with reqids := (this.reqids.put entry entry).2 })

end KernelInterface

/-! ## What the keys mean -/

/-- Selectors and marks. -/
structure ReqidPolicy where
  local_ : List TrafficSelector.Selection
  remote : List TrafficSelector.Selection
  markIn : Mark
  markOut : Mark
  deriving DecidableEq

def AllocReqid.policy (args : AllocReqid) : ReqidPolicy :=
  ⟨args.localTs.map (·.selection), args.remoteTs.map (·.selection), args.markIn, args.markOut⟩

def ReqidEntry.policy (this : ReqidEntry) : ReqidPolicy :=
  ⟨this.local_.map (·.selection), this.remote.map (·.selection), this.markIn, this.markOut⟩

/-- What references to the entry are released by. -/
def ReqidEntry.ref (this : ReqidEntry) : ReqidRef := ⟨this.reqid, this.markIn, this.markOut⟩

/-- Its selectors are copies. -/
structure ReqidEntry.Copied (this : ReqidEntry) : Prop where
  local_ : arrayFromTsList this.local_ = this.local_
  remote : arrayFromTsList this.remote = this.remote

theorem equalsReqid_iff {a b : ReqidEntry} : equalsReqid a b = true ↔ a.ref = b.ref := by
  obtain ⟨-, -, ⟨_, _⟩, ⟨_, _⟩, -, -⟩ := a
  obtain ⟨-, -, ⟨_, _⟩, ⟨_, _⟩, -, -⟩ := b
  simp [equalsReqid, ReqidEntry.ref, and_assoc]

theorem consistent_reqid (key : Chunk) : Hashtable.Consistent (hashReqid key) equalsReqid where
  refl _ := equalsReqid_iff.mpr rfl
  symm h := equalsReqid_iff.mpr (equalsReqid_iff.mp h).symm
  trans h h' := equalsReqid_iff.mpr ((equalsReqid_iff.mp h).trans (equalsReqid_iff.mp h'))
  hash {a b} h := by
    obtain ⟨hreqid, hin, hout⟩ := ReqidRef.mk.inj (equalsReqid_iff.mp h)
    rw [hashReqid, hashReqid, hreqid, hin, hout]

theorem tsArrayEquals_iff {a b : List TrafficSelector} :
    tsArrayEquals a b = true ↔ a.map (·.compared) = b.map (·.compared) := by
  unfold tsArrayEquals
  induction a generalizing b with
  | nil => cases b <;> simp
  | cons ts a ih =>
    cases b with
    | nil => simp
    | cons ts' b =>
      rw [List.map_cons, List.map_cons, List.cons.injEq, ← TrafficSelector.equals_iff, ← ih]
      simp only [List.length_cons, List.zip_cons_cons, List.all_cons, Bool.and_eq_true,
        decide_eq_true_eq, add_left_inj]
      tauto

theorem hashTsArray_eq {a b : List TrafficSelector} (h : a.map (·.compared) = b.map (·.compared))
    (key : Chunk) (hash : U32) : hashTsArray key a hash = hashTsArray key b hash := by
  unfold hashTsArray
  induction a generalizing b hash with
  | nil => rw [List.map_eq_nil_iff.mp h.symm]
  | cons ts a ih =>
    obtain _ | ⟨ts', b⟩ := b
    · cases h
    obtain ⟨hts, hrest⟩ := List.cons.inj h
    rw [List.foldl_cons, List.foldl_cons, TrafficSelector.hash_eq hts, ih hrest]

theorem equalsReqidByTs_iff {a b : ReqidEntry} :
    equalsReqidByTs a b = true ↔ a.local_.map (·.compared) = b.local_.map (·.compared) ∧
      a.remote.map (·.compared) = b.remote.map (·.compared) ∧
      a.markIn = b.markIn ∧ a.markOut = b.markOut := by
  obtain ⟨-, -, ⟨_, _⟩, ⟨_, _⟩, -, -⟩ := a
  obtain ⟨-, -, ⟨_, _⟩, ⟨_, _⟩, -, -⟩ := b
  simp [equalsReqidByTs, tsArrayEquals_iff, and_assoc]

theorem consistent_reqidByTs (key : Chunk) :
    Hashtable.Consistent (hashReqidByTs key) equalsReqidByTs where
  refl _ := equalsReqidByTs_iff.mpr ⟨rfl, rfl, rfl, rfl⟩
  symm h := by
    obtain ⟨hlocal, hremote, hin, hout⟩ := equalsReqidByTs_iff.mp h
    exact equalsReqidByTs_iff.mpr ⟨hlocal.symm, hremote.symm, hin.symm, hout.symm⟩
  trans h h' := by
    obtain ⟨hlocal, hremote, hin, hout⟩ := equalsReqidByTs_iff.mp h
    rw [equalsReqidByTs_iff, hlocal, hremote, hin, hout]
    exact equalsReqidByTs_iff.mp h'
  hash {a b} h := by
    obtain ⟨hlocal, hremote, hin, hout⟩ := equalsReqidByTs_iff.mp h
    rw [hashReqidByTs, hashReqidByTs, hashTsArray_eq hlocal, hashTsArray_eq hremote, hin, hout]

theorem map_selection_copies {array : List TrafficSelector} (h : arrayFromTsList array = array) :
    array.map (·.selection) = array.map (·.compared) := by
  nth_rewrite 2 [← h]
  rw [arrayFromTsList, List.map_map]
  rfl

/-- **Entries are equal by traffic selectors if they are for one policy.** -/
theorem equalsReqidByTs_copied {a b : ReqidEntry} (ha : a.Copied) (hb : b.Copied) :
    equalsReqidByTs a b = true ↔ a.policy = b.policy := by
  rw [equalsReqidByTs_iff, ← map_selection_copies ha.local_, ← map_selection_copies hb.local_,
    ← map_selection_copies ha.remote, ← map_selection_copies hb.remote, ReqidEntry.policy,
    ReqidEntry.policy, ReqidPolicy.mk.injEq]

namespace KernelInterface

theorem copied_template (address : ℕ) (args : AllocReqid) : (template address args).Copied := by
  constructor <;> simp [template, arrayFromTsList]

@[simp] theorem policy_template (address : ℕ) (args : AllocReqid) :
    (template address args).policy = args.policy := by
  simp [template, ReqidEntry.policy, AllocReqid.policy, arrayFromTsList,
    TrafficSelector.selection]

end KernelInterface

end StrongSwan
