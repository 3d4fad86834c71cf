import StrongSwan.Asn1.Asn1Parser
import StrongSwan.Asn1.Oid

/-!
# Algorithm identifiers

`asn1_parse_algorithmIdentifier` returns the OID it finds in an algorithmIdentifier, whatever else is
in there.

* `exists_of_parse`: where the OID comes from.
* **`parse_algorithmIdentifier`**: the OID is found with any parameters.
-/

namespace StrongSwan

open Asn1Parser

/-- ASN.1 definition of an algorithmIdentifier -/
def algorithmIdentifierObjects : List Asn1Object :=
  [⟨0, asn1Sequence, {}⟩,                               -- algorithmIdentifier
    ⟨1, asn1Oid, { body := true }⟩,                     -- algorithm
    ⟨1, asn1Oid, { raw := true, option := true }⟩,      -- parameters
    ⟨1, asn1Eoc, { close := true }⟩,                    -- end opt
    ⟨1, asn1Sequence, { raw := true, option := true }⟩, -- parameters
    ⟨1, asn1Eoc, { close := true }⟩,                    -- end opt
    ⟨1, asn1OctetString, { raw := true, option := true }⟩, -- parameters
    ⟨1, asn1Eoc, { close := true }⟩,                    -- end opt
    ⟨0, asn1Eoc, { exit := true }⟩]                     -- exit

/-- What is done with the objects of an algorithmIdentifier: the OID and the parameters so far -/
def handleAlgorithmIdentifier (table : OidTable) (objectID : ℕ) (object : Chunk)
    (s : Option ℕ × Chunk) : (Option ℕ × Chunk) × Bool :=
  match objectID with
  | 1 => ((asn1KnownOid table object, s.2), true)
  | 2 | 4 | 6 => ((s.1, object), true)
  | _ => (s, true)

theorem noLoop_algorithmIdentifierObjects :
    ∀ obj ∈ algorithmIdentifierObjects, obj.flags.loop = false := by decide

theorem run_algorithmIdentifier_isSome (table : OidTable) (blob : Chunk) :
    (run (handleAlgorithmIdentifier table) 10 (create algorithmIdentifierObjects blob)
      (none, [])).isSome = true :=
  run_isSome noLoop_algorithmIdentifierObjects (fun _ => rfl) (by decide) (by simp [create,
    algorithmIdentifierObjects])

/-- `asn1_parse_algorithmIdentifier`: the OID and the parameters; `none` is `OID_UNKNOWN`. -/
def asn1ParseAlgorithmIdentifier (table : OidTable) (blob : Chunk) : Option ℕ × Chunk :=
  ((run (handleAlgorithmIdentifier table) 10 (create algorithmIdentifierObjects blob)
    (none, [])).get (run_algorithmIdentifier_isSome table blob)).1

variable {table : OidTable} {blob : Chunk}

theorem parse_eq {s : Option ℕ × Chunk} {success : Bool}
    (h : run (handleAlgorithmIdentifier table) 10 (create algorithmIdentifierObjects blob) (none, [])
      = some (s, success)) : asn1ParseAlgorithmIdentifier table blob = s := by
  simp only [asn1ParseAlgorithmIdentifier, h, Option.get_some]

theorem run_behind_oid {parser : Asn1Parser} {fuel : ℕ} {s s' : Option ℕ × Chunk} {success : Bool}
    (hobjects : parser.objects = algorithmIdentifierObjects)
    (hloop : ∀ level, parser.loopAddr level = 0) (hnext : 2 ≤ parser.next)
    (h : run (handleAlgorithmIdentifier table) fuel parser s = some (s', success)) : s'.1 = s.1 := by
  refine run_invariant (P := fun s' : Option ℕ × Chunk => s'.1 = s.1)
    (by rw [hobjects]; exact noLoop_algorithmIdentifierObjects) hloop ?_ rfl h
  intro objectID data s' hid hs
  unfold handleAlgorithmIdentifier
  split
  · omega
  all_goals exact hs

theorem exists_of_parse {n : ℕ} (h : (asn1ParseAlgorithmIdentifier table blob).1 = some n) :
    ∃ content, asn1KnownOid table content = some n ∧ content.length + 4 ≤ blob.length := by
  obtain ⟨⟨s, success⟩, hrun⟩ :=
    Option.isSome_iff_exists.mp (run_algorithmIdentifier_isSome table blob)
  rw [parse_eq hrun] at h
  -- the sequence
  set parser := create algorithmIdentifierObjects blob with hparser
  have hline : parser.objects[parser.next]? = some ⟨0, asn1Sequence, {}⟩ := rfl
  obtain ⟨⟨parser', result⟩, hiterate⟩ : ∃ result, parser.iterate = result := ⟨_, rfl⟩
  obtain _ | ⟨objectID, data⟩ := result
  · rw [run_stop hiterate] at hrun
    cases hrun
    cases h
  obtain ⟨tlv, sequence, rest, helement, rfl, rfl, -⟩ :=
    iterate_some hline ⟨rfl, rfl, rfl, rfl, rfl, rfl⟩ rfl rfl hiterate
  rw [run_step hiterate rfl] at hrun
  -- the OID
  have hline' : (parser.behind 0 sequence rest).objects[(parser.behind 0 sequence rest).next]? =
      some ⟨1, asn1Oid, { body := true }⟩ := rfl
  obtain ⟨⟨parser'', result⟩, hiterate'⟩ :
      ∃ result, (parser.behind 0 sequence rest).iterate = result := ⟨_, rfl⟩
  obtain _ | ⟨objectID, data⟩ := result
  · rw [run_stop hiterate'] at hrun
    cases hrun
    cases h
  obtain ⟨tlv', content, rest', helement', rfl, rfl, hdata⟩ :=
    iterate_some hline' ⟨rfl, rfl, rfl, rfl, rfl, rfl⟩ rfl rfl hiterate'
  rw [run_step hiterate' rfl] at hrun
  have hfound := run_behind_oid rfl (fun _ => rfl) le_rfl hrun
  refine ⟨content, ?_, ?_⟩
  · rw [← h, hfound]
    exact congrArg (asn1KnownOid table) hdata.symm
  · obtain ⟨hblob, -, hlen⟩ := asn1Element_some helement
    obtain ⟨hsequence, -, hlen'⟩ := asn1Element_some helement'
    have hblob' : blob = tlv ++ rest := hblob
    have hsequence' : sequence = tlv' ++ rest' := hsequence
    rw [hsequence', List.length_append] at hlen
    rw [hblob', List.length_append]
    omega

/-- **The OID is found**, with any parameters behind it. -/
theorem parse_algorithmIdentifier {content parameters : Chunk}
    (hlen : (asn1SimpleObject asn1Oid content ++ parameters).length < 2 ^ 24) :
    (asn1ParseAlgorithmIdentifier table
      (asn1SimpleObject asn1Sequence (asn1SimpleObject asn1Oid content ++ parameters))).1 =
      asn1KnownOid table content := by
  set sequence := asn1SimpleObject asn1Oid content ++ parameters with hsequence
  set blob := asn1SimpleObject asn1Sequence sequence with hblob
  obtain ⟨⟨s, success⟩, hrun⟩ :=
    Option.isSome_iff_exists.mp (run_algorithmIdentifier_isSome table blob)
  rw [parse_eq hrun]
  set parser := create algorithmIdentifierObjects blob with hparser
  -- the sequence
  have hline : parser.objects[parser.next]? = some ⟨0, asn1Sequence, {}⟩ := rfl
  have helement : asn1Element (parser.blobs 0) = some (blob, sequence, []) := by
    have hread : asn1Element (blob ++ []) = some (blob, sequence, []) :=
      asn1Element_simpleObject hlen
    rwa [List.append_nil] at hread
  have hiterate := iterate_element hline ⟨rfl, rfl, rfl, rfl, rfl, rfl⟩ rfl helement (.inr rfl)
  rw [run_step hiterate rfl] at hrun
  -- the OID
  have hline' : (parser.behind 0 sequence []).objects[(parser.behind 0 sequence []).next]? =
      some ⟨1, asn1Oid, { body := true }⟩ := rfl
  have hcontent : content.length < 2 ^ 24 := by
    rw [hsequence, List.length_append, length_simpleObject] at hlen
    omega
  have helement' : asn1Element ((parser.behind 0 sequence []).blobs 1) =
      some (asn1SimpleObject asn1Oid content, content, parameters) :=
    asn1Element_simpleObject hcontent
  have hiterate' := iterate_element hline' ⟨rfl, rfl, rfl, rfl, rfl, rfl⟩ rfl helement' (.inr rfl)
  rw [run_step hiterate' rfl] at hrun
  rw [run_behind_oid rfl (fun _ => rfl) le_rfl hrun]
  rfl

end StrongSwan
