import StrongSwan.Basic
import StrongSwan.Lib.Recent

/-!
# IVs of IKEv1 exchanges

The IV of phase 1 and those of later exchanges, of which only the most recently used ones are kept.
An IV is the last block of the message before it; the first one is a hash. The hasher is a parameter.

* `generateIv`, `lookupIv`: how IVs are made and found.
* `getIv`, `updateIv`, `confirmIv`, `lookupQuickMode`: the calls; `Call`, `run`: many of them.
* `confirmedIv`: the block that was confirmed; `Kept`: no other exchanges take the place of one.
-/

namespace StrongSwan

namespace Ikev1

/-- `iv_data_t`. A chunk that is not set is none. -/
structure IvData where
  /-- message ID -/
  mid : U32
  /-- current IV -/
  iv : Option Chunk := none
  /-- last block of encrypted message -/
  lastBlock : Option Chunk := none
  deriving DecidableEq, Repr

structure QmData where
  mid : U32
  /-- Ni_b -/
  nI : Option Chunk := none
  /-- Nr_b -/
  nR : Option Chunk := none
  deriving DecidableEq, Repr

structure IvManager where
  phase1Iv : IvData := { mid := 0 }
  ivs : List IvData := []
  qms : List QmData := []
  maxExchanges : ℕ
  blockSize : ℕ := 0
  deriving DecidableEq, Repr

def chunkClone (chunk : Chunk) : Option Chunk := if chunk = [] then none else some chunk

namespace IvManager

variable (allocateHash : Chunk → Option Chunk)

def generateIv (this : IvManager) (iv : IvData) : Bool × IvData :=
  if iv.mid = 0 ∨ iv.iv ≠ none then
    -- use last block of previous encrypted message
    (true, { iv with iv := iv.lastBlock, lastBlock := none })
  else
    -- initial phase 2 IV = hash(last_phase1_block | mid)
    match allocateHash (this.phase1Iv.iv.getD [] ++ htoun32 iv.mid) with
    | none => (false, iv)
    | some hash => (true, { iv with iv := some (hash.take this.blockSize) })

/-- `lookup_iv`: the manager and the data that is found or generated -/
def lookupIv (this : IvManager) (mid : U32) : IvManager × Option IvData :=
  if mid = 0 then (this, some this.phase1Iv)
  else
    let found :=
      match Recent.find IvData.mid mid this.ivs with
      | some iv => some iv
      | none =>
        match this.generateIv allocateHash { mid := mid } with
        | (true, iv) => some iv
        | (false, _) => none
    match found with
    | none => (this, none)
    | some iv => ({ this with ivs := Recent.touch IvData.mid this.maxExchanges iv this.ivs }, some iv)

/-- The data that was found is written. -/
def store (this : IvManager) (iv : IvData) : IvManager :=
  if iv.mid = 0 then { this with phase1Iv := iv }
  else { this with ivs := Recent.store IvData.mid iv this.ivs }

def initIvChain (this : IvManager) (data : Chunk) (blockSize : ℕ) : IvManager × Bool :=
  match allocateHash data with
  | none => ({ this with blockSize := blockSize }, false)
  | some hash =>
    ({ this with
        blockSize := blockSize
        phase1Iv := { this.phase1Iv with iv := some (hash.take blockSize) } }, true)

/-- `get_iv`, with the IV if it is found -/
def getIv (this : IvManager) (mid : U32) : IvManager × Option Chunk :=
  match this.lookupIv allocateHash mid with
  | (this, some iv) => (this, some (iv.iv.getD []))
  | (this, none) => (this, none)

def updateIv (this : IvManager) (mid : U32) (lastBlock : Chunk) : IvManager × Bool :=
  match this.lookupIv allocateHash mid with
  | (this, some iv) => (this.store { iv with lastBlock := chunkClone lastBlock }, true)
  | (this, none) => (this, false)

def confirmIv (this : IvManager) (mid : U32) : IvManager × Bool :=
  match this.lookupIv allocateHash mid with
  | (this, some iv) =>
    let (success, iv) := this.generateIv allocateHash iv
    (this.store iv, success)
  | (this, none) => (this, false)

/-- `lookup_quick_mode`: the data to which the pointers refer -/
def lookupQuickMode (this : IvManager) (mid : U32) : IvManager × QmData :=
  let found := (Recent.find QmData.mid mid this.qms).getD { mid := mid }
  ({ this with qms := Recent.touch QmData.mid this.maxExchanges found this.qms }, found)

def create (maxExchanges : ℕ) : IvManager := { maxExchanges := maxExchanges }

end IvManager

/-! ## Many calls -/

inductive Call
  | getIv (mid : U32)
  | updateIv (mid : U32) (lastBlock : Chunk)
  | confirmIv (mid : U32)
  deriving DecidableEq, Repr

/-- The message ID of a call -/
def Call.mid : Call → U32
  | getIv mid | updateIv mid _ | confirmIv mid => mid

namespace IvManager

variable (allocateHash : Chunk → Option Chunk)

/-- What a call makes of the manager -/
def call (this : IvManager) : Call → IvManager
  | .getIv mid => (this.getIv allocateHash mid).1
  | .updateIv mid lastBlock => (this.updateIv allocateHash mid lastBlock).1
  | .confirmIv mid => (this.confirmIv allocateHash mid).1

/-- What calls make of the manager -/
def run (this : IvManager) (calls : List Call) : IvManager :=
  calls.foldl (call allocateHash) this

end IvManager

def lastUpdate (mid : U32) (calls : List Call) : Option Chunk :=
  calls.reverse.findSome? fun
    | .updateIv mid' lastBlock => if mid' = mid then some lastBlock else none
    | _ => none

/-- The block of the last update before the last confirmation -/
def confirmedIv (mid : U32) (calls : List Call) : Option Chunk :=
  lastUpdate mid (calls.rdropWhile (· ≠ .confirmIv mid))

/-- Each confirmation of an IV follows an update with a block, which is behind the confirmation
before. `waiting` says whether there is such an update already. -/
def Confirmable (mid : U32) : Bool → List Call → Prop
  | _, [] => True
  | waiting, .getIv _ :: calls => Confirmable mid waiting calls
  | waiting, .updateIv mid' lastBlock :: calls =>
    if mid' = mid then Confirmable mid (lastBlock ≠ []) calls else Confirmable mid waiting calls
  | waiting, .confirmIv mid' :: calls =>
    if mid' = mid then waiting = true ∧ Confirmable mid false calls
    else Confirmable mid waiting calls

/-- Fewer than `max` other message IDs are used between calls of one, where `others` are those since the
last call. Phase 1 has a place of its own. -/
def Kept (max : ℕ) (mid : U32) : Finset U32 → List Call → Prop
  | others, [] => others.card < max
  | others, call :: calls =>
    others.card < max ∧
      if call.mid = mid then Kept max mid ∅ calls
      else if call.mid = 0 then Kept max mid others calls
      else Kept max mid (insert call.mid others) calls

end Ikev1

end StrongSwan
