import StrongSwan.Basic
import StrongSwan.Lib.DepthFirst

/-!
# Lookups in the settings

Sections with their subsections, key/value pairs and fallbacks, the way fallbacks are added, and
lookups of values and sections by a key. Sections are referred to by their place in a heap.

* `Section`, `Heap`; `Key`: the components of a key as they are printed.
* `findSectionBuffered`, `addFallback`: sections are created, and get fallbacks.
* `findValueBuffered`, `findSectionsBuffered`: lookups that follow fallbacks, with a bound for
  nested calls.
-/

namespace StrongSwan

namespace Settings

structure Kv where
  key : Chunk
  value : Option Chunk
  deriving DecidableEq, Repr

/-- `section_t`. The name of the top section is empty. -/
structure Section where
  name : Chunk
  /-- Fallback sections, if there is an array for them -/
  fallbacks : Option (List ℕ) := none
  /-- Subsections, sorted by name -/
  sections : List ℕ := []
  /-- Key value pairs, sorted by key -/
  kv : List Kv := []
  deriving DecidableEq, Repr

/-- All sections -/
abbrev Heap := List Section

/-- The components of a key in the order of the text, each as `print_key` prints it if that fits -/
abbrev Key := List (Option Chunk)

/-- The key is copied to a buffer, and cut at the dots. What `print_key` makes of a component depends
on its place, as it consumes arguments. -/
def keyOf (printKey : ℕ → Chunk → Option Chunk) (key : Chunk) : Option Key :=
  if key.length ≥ 512 then none else some ((key.splitOn 0x2e).mapIdx printKey)

namespace Heap

/-- `array_bsearch` for a section with a name -/
def bsearch (heap : Heap) (sections : List ℕ) (name : Chunk) : Option ℕ :=
  sections.find? fun p => (heap[p]?.map Section.name) = some name

/-- `array_sort` by name -/
def sort (heap : Heap) (sections : List ℕ) : List ℕ :=
  sections.insertionSort fun p q => (heap[p]?.map Section.name).getD [] ≤
    (heap[q]?.map Section.name).getD []

/-- `settings_section_add` for a created section that is not found in the parent -/
def addSection (heap : Heap) (parent : ℕ) (section' : Section) : Heap :=
  let heap := heap ++ [section']
  heap.modify parent fun this =>
    { this with sections := heap.sort (this.sections ++ [heap.length - 1]) }

/-- The section itself for an empty name, or a subsection -/
def subsection (heap : Heap) (p : ℕ) (this : Section) (name : Chunk) : Option ℕ :=
  if name = [] then some p else heap.bsearch this.sections name

/-- The fallbacks that are followed -/
def fallbacks (heap : Heap) (p : ℕ) : List ℕ := (heap[p]?.bind Section.fallbacks).getD []

/-- `find_section_buffered` with `ensure` -/
def findSectionBuffered : Heap → ℕ → Key → Heap × Option ℕ
  | heap, p, some buf :: path =>
    match heap[p]? with
    | none => (heap, none)
    | some this =>
      let (heap, found) :=
        match heap.subsection p this buf with
        | some q => (heap, q)
        | none => (heap.addSection p { name := buf }, heap.length)
      if path = [] then (heap, some found) else findSectionBuffered heap found path
  | heap, _, _ => (heap, none)

def fallbackExists (heap : Heap) (p fallback : ℕ) : Bool :=
  p = fallback || (heap.fallbacks p).contains fallback

def ensureSection (heap : Heap) (p : ℕ) : Option Key → Heap × Option ℕ
  | none => (heap, none)
  | some key => heap.findSectionBuffered p key

/-- `add_fallback_to_section`, or nothing where it follows a null pointer, as a key is not printed -/
def addFallbackToSection (heap : Heap) (p : ℕ) (key : Option Key) (fallback : Option ℕ) :
    Option Heap :=
  match key with
  | none => some heap
  | some key =>
    let (heap, found) := heap.findSectionBuffered p key
    match found, fallback with
    | none, none => some heap
    | some found, some fallback =>
      if heap.fallbackExists found fallback then some heap
      else
        -- sections referred to as fallback get an array too, so that they are not purged
        let heap := heap.modify fallback fun this =>
          { this with fallbacks := some (this.fallbacks.getD []) }
        some <| heap.modify found fun this =>
          { this with fallbacks := some (this.fallbacks.getD [] ++ [fallback]) }
    | _, _ => none

def addFallback (heap : Heap) (key fallback : Option Key) : Option Heap :=
  let (heap, found) := heap.ensureSection 0 fallback
  heap.addFallbackToSection 0 key found

/-- `find_value_buffered` without `ensure`. A component that does not fit ends the lookup in a section
and, as it fits nowhere, in all. -/
def findValueBuffered (heap : Heap) : ℕ → ℕ → Key → Option (Option Kv)
  | 0, _, _ => none
  | fuel + 1, p, key =>
    match heap[p]?, key with
    | some this, some buf :: path =>
      let fallbacks := fun _ : Unit =>
        DepthFirst.firstOf (fun q => findValueBuffered heap fuel q key) (heap.fallbacks p)
      if path = [] then
        match this.kv.find? (fun kv => kv.key = buf) with
        | some kv => some (some kv)
        | none => fallbacks ()
      else
        match heap.subsection p this buf with
        | none => fallbacks ()
        | some q =>
          match findValueBuffered heap fuel q path with
          | some none => fallbacks ()
          | result => result
    | _, _ => some none

def findValue (heap : Heap) (fuel p : ℕ) (key : Option Key) : Option (Option Chunk) :=
  match key with
  | none => some none
  | some key => (heap.findValueBuffered fuel p key).map fun kv => kv.bind Kv.value

def findSectionsBuffered (heap : Heap) : ℕ → ℕ → Key → Option (List ℕ)
  | 0, _, _ => none
  | fuel + 1, p, key =>
    match heap[p]?, key with
    | some this, some buf :: path =>
      let own :=
        match heap.subsection p this buf with
        | none => some []
        | some q =>
          if path = [] then some (q :: heap.fallbacks q) else findSectionsBuffered heap fuel q path
      own.bind fun own =>
        (DepthFirst.allOf (fun q => findSectionsBuffered heap fuel q key) (heap.fallbacks p)).map
          (own ++ ·)
    | _, _ => some []

def findSections (heap : Heap) (fuel p : ℕ) (key : Option Key) : Option (List ℕ) :=
  match key with
  | none => some []
  | some key => heap.findSectionsBuffered fuel p key

end Heap

end Settings

end StrongSwan
