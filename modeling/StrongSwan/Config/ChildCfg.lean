import StrongSwan.Selectors.Constructors

/-!
# Traffic selectors of child configs

A child config has traffic selectors for both ends. They are narrowed to the ones a peer supplied, and
redundant ones are removed from the result.

* `Obj`: a traffic selector on the heap; `Lists`: the lists of a call, with what it has freed.
* `derive`: the selectors that a configured one stands for; `compare`: the inner loop that looks for a
  redundant selector.
* `step`, `run`: one turn of the loops, and the first `n` ones.
-/

namespace StrongSwan

/-- `child_cfg_t`: the traffic selectors, and what says how they are derived -/
structure ChildCfg where
  myTs : List TrafficSelector
  otherTs : List TrafficSelector
  /-- transport mode -/
  transport : Bool
  proxyMode : Bool

namespace ChildCfg

/-- A traffic selector object. -/
structure Obj where
  id : ℕ
  ts : TrafficSelector

/-- Which loop of `get_traffic_selectors` is at work. -/
inductive Phase
  /-- replace "dynamic" TS with the host list -/
  | derive (rest : List Obj)
  /-- nothing was supplied: derived selectors are moved to the result -/
  | move
  /-- enumerate all configured/derived selectors -/
  | select (rest : List Obj)
  /-- remove any redundant traffic selectors in the list; `next` selectors have been enumerated before -/
  | reduce (next : ℕ)
  | done

/-- The lists of a call, the objects it has freed, and the next object that is allocated. -/
structure Lists where
  configured : List Obj
  supplied : Option (List Obj)
  derived : List Obj := []
  result : List Obj := []
  freed : List ℕ := []
  fresh : ℕ
  phase : Phase := .derive configured

/-- New objects. -/
def alloc (fresh : ℕ) (selectors : List TrafficSelector) : List Obj :=
  (selectors.zipIdx fresh).map fun entry => ⟨entry.2, entry.1⟩

/-- The selectors that a configured one stands for. Hosts are set if it is dynamic or as initiator in
transport mode. -/
def derive (this : ChildCfg) (hosts : List Host) (isSupplied : Bool) (ts1 : TrafficSelector) :
    List TrafficSelector :=
  if hosts ≠ [] ∧ (ts1.dynamic || (this.transport && !this.proxyMode && !isSupplied)) = true then
    hosts.map fun host =>
      -- don't make regular TS larger than they were
      if ts1.dynamic || !host.isAnyaddr then ts1.clone.setAddress host else ts1.clone
  else [ts1.clone]

/-- What comparing a selector with all others comes to. -/
inductive Comparison
  | removeSecond (pos : ℕ)
  | removeFirst
  | keep
  deriving DecidableEq

/-- Compare `ts1` with the selectors of a list, of which the first is at `pos`. -/
def compare (ts1 : Obj) : ℕ → List Obj → Comparison
  | _, [] => .keep
  | pos, ts2 :: rest =>
    if ts1.id ≠ ts2.id then
      if ts2.ts.isContainedIn ts1.ts then .removeSecond pos
      else if ts1.ts.isContainedIn ts2.ts then .removeFirst
      else compare ts1 (pos + 1) rest
    else compare ts1 (pos + 1) rest

/-- Remove and destroy the selector at `pos`, and go on after `next` selectors. -/
def removeAt (lists : Lists) (pos next : ℕ) : Lists :=
  { lists with
    result := lists.result.eraseIdx pos
    freed := lists.freed ++ (lists.result[pos]?.map Obj.id).toList
    phase := .reduce next }

/-- One turn of the loops of `get_traffic_selectors`. -/
def step (this : ChildCfg) (hosts : List Host) (lists : Lists) : Lists :=
  match lists.phase with
  | .derive (ts1 :: rest) =>
    let clones := this.derive hosts lists.supplied.isSome ts1.ts
    { lists with
      derived := lists.derived ++ alloc lists.fresh clones
      fresh := lists.fresh + clones.length
      phase := .derive rest }
  | .derive [] =>
    { lists with phase := if lists.supplied.isSome then .select lists.derived else .move }
  | .move =>
    match lists.derived with
    | ts1 :: rest => { lists with derived := rest, result := lists.result ++ [ts1] }
    | [] => { lists with phase := .reduce 0 }
  | .select (ts1 :: rest) =>
    -- enumerate all supplied traffic selectors
    let selected := (lists.supplied.getD []).filterMap fun ts2 => ts1.ts.getSubset ts2.ts
    { lists with
      result := lists.result ++ alloc lists.fresh selected
      fresh := lists.fresh + selected.length
      phase := .select rest }
  | .select [] =>
    { lists with
      derived := []
      freed := lists.freed ++ lists.derived.map Obj.id
      phase := .reduce 0 }
  | .reduce next =>
    match lists.result[next]? with
    | none => { lists with phase := .done }
    | some ts1 =>
      match compare ts1 0 lists.result with
      -- the first enumerator is reset
      | .removeSecond pos => removeAt lists pos 0
      | .removeFirst => removeAt lists next next
      | .keep => { lists with phase := .reduce (next + 1) }
  | .done => lists

/-- The first `n` turns. -/
def run (this : ChildCfg) (hosts : List Host) (lists : Lists) (n : ℕ) : Lists :=
  (this.step hosts)^[n] lists

/-- The lists that `get_traffic_selectors` starts with. -/
def start (this : ChildCfg) (isLocal : Bool) (supplied : Option (List TrafficSelector)) : Lists :=
  let configured := if isLocal then this.myTs else this.otherTs
  { configured := alloc 0 configured
    supplied := supplied.map (alloc configured.length)
    fresh := configured.length + (supplied.getD []).length }

end ChildCfg

end StrongSwan
