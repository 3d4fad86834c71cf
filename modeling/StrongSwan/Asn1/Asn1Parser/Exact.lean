import StrongSwan.Asn1.Asn1Parser.Loops
import StrongSwan.Asn1.Tables
import Mathlib.Tactic.IntervalCases

/-!
# Where parsing does not end

All tables are sound but for two. Each line in the loop of `ietfAttrSyntaxObjects` is optional, so
a value with a tag that none of them has stays where it is, and is looked at again and again. The loop
of `extensionRequestObjects` ends on another level than it starts on, so the search for its end leaves
the table when it has no items.

* `Ietf.step_cases`: what a step does to the values of an `ietfAttrSyntax`.
* `ietf_ends_iff`: parsing them ends unless there is one that no line takes.
* `extensionRequest_ends`, `extensionRequest_not_ends`: the loop of the extensions.
* **`ends_iff`**: parsing ends if and only if the blob has no such value and no such loop.
-/

namespace StrongSwan

namespace Asn1Parser

open Asn1Tables

variable {this s t : Asn1Parser} {objects : List Asn1Object} {obj : Asn1Object} {line level : ℕ}
  {r : ℕ × Chunk}

/-! ## What blobs have in them -/

/-- The content of a `SEQUENCE`, whatever its tag is if that is implicit. -/
def ofSequence (implicit : Bool) (blob : Chunk) : Option Chunk :=
  (asn1Element blob).bind fun (tlv, content, _) =>
    if implicit ∨ tlv.head? = some asn1Sequence then some content else none

/-- The values behind the authority in the content of an `ietfAttrSyntax` -/
def valuesIn (content : Chunk) : Option Chunk :=
  if content.head? = some (asn1ContextC 0) then
    (asn1Element content).bind fun (_, _, rest) => ofSequence false rest
  else ofSequence false content

/-- The values of an `ietfAttrSyntax` -/
def ietfValues (implicit : Bool) (blob : Chunk) : Option Chunk :=
  (ofSequence implicit blob).bind valuesIn

def valueTags : List U8 := [asn1OctetString, asn1Oid, asn1Utf8String]

/-- The parser gets stuck at one of the values: behind some valid ones there is one with another
tag. -/
inductive Stuck : Chunk → Prop
  | here {tag : U8} {blob : Chunk} (htag : tag ∉ valueTags) : Stuck (tag :: blob)
  | later {tag : U8} {blob tlv content rest : Chunk} (htag : tag ∈ valueTags)
      (helement : asn1Element (tag :: blob) = some (tlv, content, rest)) (hrest : Stuck rest) :
      Stuck (tag :: blob)

theorem not_stuck_nil : ¬ Stuck [] := nofun

theorem Stuck.rest {blob tlv content rest : Chunk} {tag : U8} (h : Stuck blob)
    (hhead : blob.head? = some tag) (htag : tag ∈ valueTags)
    (helement : asn1Element blob = some (tlv, content, rest)) : Stuck rest := by
  cases h with
  | here hother =>
    cases hhead
    exact absurd htag hother
  | later _ helement' hrest =>
    rw [helement'] at helement
    cases helement
    exact hrest

theorem stuck_rest_iff {blob tlv content rest : Chunk} {tag : U8} (hhead : blob.head? = some tag)
    (htag : tag ∈ valueTags) (helement : asn1Element blob = some (tlv, content, rest)) :
    Stuck rest ↔ Stuck blob := by
  refine ⟨fun h => ?_, fun h => h.rest hhead htag helement⟩
  cases blob with
  | nil => cases hhead
  | cons tag' blob =>
    cases hhead
    exact .later htag helement h

/-! ## The lines of `ietfAttrSyntaxObjects` -/

/-- The line that takes the first value -/
def takenBy (values : Chunk) : ℕ :=
  match values.head? with
  | none => 0
  | some tag => if tag = asn1OctetString then 4 else if tag = asn1Oid then 6 else
    if tag = asn1Utf8String then 8 else 0

theorem takenBy_of_mem {tag : U8} {values : Chunk} (h : values.head? = some tag) :
    tag ∈ valueTags ↔ takenBy values = 4 ∨ takenBy values = 6 ∨ takenBy values = 8 := by
  rw [takenBy, h]
  dsimp only
  simp only [valueTags, List.mem_cons, List.not_mem_nil, or_false]
  split_ifs <;> simp_all

theorem takenBy_cases (values : Chunk) :
    takenBy values = 0 ∨ takenBy values = 4 ∨ takenBy values = 6 ∨ takenBy values = 8 := by
  unfold takenBy
  split
  · exact .inl rfl
  · split_ifs <;> simp

/-- The lines of the table, but for the last one -/
inductive IetfLine : ℕ → Asn1Object → Prop
  | outer : IetfLine 0 ⟨0, asn1Sequence, {}⟩
  | authority : IetfLine 1 ⟨1, asn1ContextC 0, { option := true, body := true }⟩
  | endAuthority : IetfLine 2 ⟨1, asn1Eoc, { close := true }⟩
  | values : IetfLine 3 ⟨1, asn1Sequence, { loop := true }⟩
  | value {line : ℕ} {type : U8} (hline : line = 4 ∨ line = 6 ∨ line = 8)
      (htype : takenBy [type] = line) : IetfLine line ⟨2, type, { option := true, body := true }⟩
  | endValue {line : ℕ} (hline : line = 5 ∨ line = 7 ∨ line = 9) :
      IetfLine line ⟨2, asn1Eoc, { close := true }⟩
  | endValues : IetfLine 10 ⟨1, asn1Eoc, { close := true }⟩

theorem ietfLine (hobj : X509Ac.ietfAttrSyntaxObjects[line]? = some obj)
    (hexit : obj.flags.exit = false) : IetfLine line obj := by
  have hline : line < 12 := lt_length_of_getElem? hobj
  interval_cases line <;> cases hobj
  · exact .outer
  · exact .authority
  · exact .endAuthority
  · exact .values
  · exact .value (by decide) (by decide)
  · exact .endValue (by decide)
  · exact .value (by decide) (by decide)
  · exact .endValue (by decide)
  · exact .value (by decide) (by decide)
  · exact .endValue (by decide)
  · exact .endValues
  · cases hexit

theorem ietf_exit : ∀ line < 12, ∀ obj ∈ X509Ac.ietfAttrSyntaxObjects[line]?,
    obj.flags.exit = true → line = 11 := by
  decide

theorem IetfLine.next {target : ℕ} (h : IetfLine line obj)
    (htarget : target ∈ targets X509Ac.ietfAttrSyntaxObjects line obj) :
    target = line + 1 ∨ obj.flags.option = true ∧ target = line + 2 ∨ line = 3 ∧ target = 11 := by
  cases h with
  | value hline _ =>
    obtain rfl | rfl | rfl := hline <;>
      simpa [targets, endOf, isEnd, X509Ac.ietfAttrSyntaxObjects, List.findIdx_cons] using htarget
  | endValue _ => exact .inl (by simpa [targets] using htarget)
  | _ =>
    simp [targets, endOf, isEnd, X509Ac.ietfAttrSyntaxObjects, List.findIdx_cons] at htarget ⊢
    exact htarget

theorem IetfLine.next_close {target : ℕ} (h : IetfLine line obj) (hclose : obj.flags.close = true)
    (htarget : target ∈ targets X509Ac.ietfAttrSyntaxObjects line obj) : target = line + 1 := by
  have hnext := h.next htarget
  cases h with
  | endAuthority | endValues => simpa using hnext
  | endValue hline =>
    simp only [Bool.false_eq_true, false_and, false_or] at hnext
    omega
  | outer | authority | values => cases hclose
  | value => cases hclose

/-! ## Steps with `ietfAttrSyntaxObjects` -/

/-- The values that are still to come, as far as there are any -/
def pending (s : Asn1Parser) : Option Chunk :=
  if s.next = 0 then ietfValues s.implicit (s.blobs 0)
  else if s.next = 1 then valuesIn (s.blobs 1)
  else if s.next ≤ 3 then ofSequence false (s.blobs 1)
  else if s.next ≤ 10 then some (s.blobs 2)
  else none

/-- What holds between two steps: the only loop that runs is that of the values, and it runs as long
as there are values. -/
structure Ietf (s : Asn1Parser) : Prop where
  table : s.objects = X509Ac.ietfAttrSyntaxObjects
  success : s.success = true
  next : s.next < 12
  loop : ∀ level, s.loopAddr level ≠ 0 →
    level = 1 ∧ s.loopAddr level = 4 ∧ 4 ≤ s.next ∧ s.next ≤ 10
  runs : 4 ≤ s.next → s.next ≤ 10 → s.blobs 2 ≠ [] → s.loopAddr 1 = 4
  first : s.next = 4 → s.loopAddr 1 ≠ 0 → s.blobs 2 ≠ []

/-- What a step does to the values -/
inductive IetfStep (s t : Asn1Parser) : Prop
  | before (hline : s.next < 3) (hnext : s.next < t.next ∧ t.next ≤ 3)
      (hloop : t.loopAddr = s.loopAddr) (hpending : t.pending = s.pending)
  | start (hline : s.next = 3) (hnext : t.next = 4)
      (hloop : t.loopAddr = Function.update s.loopAddr 1 4)
      (hpending : s.pending = some (t.blobs 2)) (hne : t.blobs 2 ≠ [])
  | empty (hline : s.next = 3) (hnext : t.next = 4 ∨ t.next = 11)
      (hloop : t.loopAddr = s.loopAddr)
      (hpending : s.pending = some (t.blobs 2)) (hnil : t.blobs 2 = [])
  | take {tag : U8} {tlv content : Chunk} (hline : 4 ≤ s.next ∧ s.next ≤ 10)
      (hnext : 4 < t.next ∧ t.next ≤ 10) (hloop : t.loopAddr = s.loopAddr)
      (hhead : (s.blobs 2).head? = some tag) (htag : tag ∈ valueTags)
      (helement : asn1Element (s.blobs 2) = some (tlv, content, t.blobs 2))
  | skip (hline : 4 ≤ s.next) (hnext : s.next < t.next ∧ t.next ≤ 10)
      (hloop : t.loopAddr = s.loopAddr) (hblobs : t.blobs 2 = s.blobs 2)
      (htaken : s.next ≤ takenBy (s.blobs 2) → t.next ≤ takenBy (s.blobs 2))
  | again (hline : s.next = 10) (hnext : t.next = 5 ∨ t.next = 6)
      (hloop : t.loopAddr = s.loopAddr) (hblobs : t.blobs 2 = s.blobs 2)
      (hne : s.blobs 2 ≠ []) (htaken : takenBy (s.blobs 2) ≠ 4)
  | beyond (hline : s.next = 10) (hnext : t.next = 11)
      (hloop : t.loopAddr = Function.update s.loopAddr 1 0) (hblobs : t.blobs 2 = s.blobs 2)
      (hdone : s.loopAddr 1 = 0 ∨ s.blobs 2 = [])

theorem Ietf.again (hi : Ietf s) (h : s.Again line) : s.next = 10 ∧ line = 4 ∧ s.blobs 2 ≠ [] := by
  obtain ⟨last, hlast, hexit, hclose, haddr, hline, hne⟩ := h
  rw [hi.table] at hlast
  obtain ⟨hlevel, hfour, hnext⟩ := hi.loop last.level (haddr ▸ hline)
  refine ⟨?_, haddr.symm.trans hfour, by rwa [hlevel] at hne⟩
  generalize s.next = line' at hlast hnext
  cases ietfLine hlast hexit with
  | endValues => rfl
  | outer | authority | values => cases hclose
  | value => cases hclose
  | endAuthority => omega
  | endValue => cases hlevel

theorem Ietf.step_close (hi : Ietf s) (hobj : X509Ac.ietfAttrSyntaxObjects[s.next]? = some obj)
    (hexit : obj.flags.exit = false) (hclose : obj.flags.close = true)
    (hdone : s.loopAddr obj.level = 0 ∨ s.blobs (obj.level + 1) = [])
    (hnext : t.next ∈ targets X509Ac.ietfAttrSyntaxObjects s.next obj) (hblobs : t.blobs = s.blobs)
    (hloop : t.loopAddr = Function.update s.loopAddr obj.level 0) : IetfStep s t := by
  have hsame : obj.level ≠ 1 ∨ s.next < 4 → t.loopAddr = s.loopAddr := by
    intro h
    rw [hloop, Function.update_eq_self_iff]
    by_contra hne
    have := hi.loop obj.level (Ne.symm hne)
    omega
  have hline := ietfLine hobj hexit
  have hnext' := hline.next_close hclose hnext
  generalize hs : s.next = line at hline hnext' hsame
  cases hline with
  | endAuthority =>
    refine .before (by omega) (by omega) (hsame (.inr (by omega))) ?_
    simp [pending, hs, hnext', hblobs]
  | endValue hline =>
    refine .skip (by omega) (by omega) (hsame (.inl (by decide))) (congrFun hblobs 2) fun h => ?_
    have := takenBy_cases (s.blobs 2)
    omega
  | endValues => exact .beyond hs hnext' hloop (congrFun hblobs 2) hdone
  | outer | authority | values => cases hclose
  | value => cases hclose

theorem head?_of_asn1Element {blob tlv content rest : Chunk}
    (h : asn1Element blob = some (tlv, content, rest)) : tlv.head? = blob.head? := by
  obtain ⟨hblob, -, hlen⟩ := asn1Element_some h
  rw [hblob, List.head?_append_of_ne_nil]
  rintro rfl
  simp at hlen

theorem takenBy_ne_of_missing {type : U8} (hline : line ≠ 0) (htype : takenBy [type] = line)
    {values : Chunk} (h : values.length = 0 ∨ values.head? ≠ some type) : takenBy values ≠ line := by
  rintro heq
  cases values with
  | nil => exact hline heq.symm
  | cons tag values =>
    have hne : tag ≠ type := by simpa using h
    rw [← htype] at heq hline
    simp only [takenBy, List.head?_cons] at heq hline
    split_ifs at heq hline <;> simp_all

theorem step_value {type : U8} (hline : line = 4 ∨ line = 6 ∨ line = 8)
    (htype : takenBy [type] = line)
    (hparses : s.Parses line ⟨2, type, { option := true, body := true }⟩ t) :
    t.loopAddr = s.loopAddr ∧ ((t.blobs 2 = s.blobs 2 ∧ takenBy (s.blobs 2) ≠ line) ∨
      ∃ tag tlv content, (s.blobs 2).head? = some tag ∧ tag ∈ valueTags ∧
        asn1Element (s.blobs 2) = some (tlv, content, t.blobs 2)) := by
  cases hparses with
  | missing hmissing _ hblobs hloop =>
    exact ⟨hloop, .inl ⟨congrFun hblobs 2, takenBy_ne_of_missing (by omega) htype hmissing⟩⟩
  | @element tlv content rest inner hthere helement _ _ hblobs hloop =>
    obtain ⟨hloop, -⟩ | ⟨hflag, -⟩ := hloop
    swap
    · cases hflag
    refine ⟨hloop, .inr ⟨type, tlv, content, ?_, ?_, ?_⟩⟩
    · by_contra hhead
      exact hthere (.inr rfl) (.inr hhead)
    · rw [takenBy_of_mem (show [type].head? = some type from rfl)]
      omega
    · rw [hblobs]
      dsimp only
      rw [Function.update_of_ne (by decide), Function.update_self]
      exact helement

theorem step_parse (hobj : X509Ac.ietfAttrSyntaxObjects[s.next]? = some obj)
    (hexit : obj.flags.exit = false) (hclose : obj.flags.close = false)
    (hnext : t.next ∈ targets X509Ac.ietfAttrSyntaxObjects s.next obj)
    (hparses : s.Parses s.next obj t) : IetfStep s t := by
  have hline := ietfLine hobj hexit
  have hnext' := hline.next hnext
  generalize hs : s.next = line at hline hnext' hparses
  cases hline with
  | outer =>
    cases hparses with
    | missing _ hflags _ _ => simp at hflags
    | @element tlv content rest inner _ helement htype hinner hblobs hloop =>
      obtain rfl : inner = content := by simpa using hinner
      obtain ⟨hloop, -⟩ | ⟨hflag, -⟩ := hloop
      swap
      · cases hflag
      have hcontent : ofSequence s.implicit (s.blobs 0) = some inner := by
        simp only [ofSequence, helement, Option.bind_some]
        rw [if_pos]
        simpa [or_comm] using htype
      have htnext : t.next = 1 := by simpa using hnext'
      refine .before (by omega) (by omega) hloop ?_
      simp [pending, hs, htnext, ietfValues, hcontent, hblobs]
  | authority =>
    have htnext : t.next = 2 ∨ t.next = 3 := by simpa using hnext'
    have hpending : t.pending = ofSequence false (t.blobs 1) := by
      obtain h | h := htnext <;> simp [pending, h]
    have hloop : t.loopAddr = s.loopAddr := by
      funext level
      obtain h | ⟨-, hflag, -⟩ := hparses.loopAddr level
      · exact h
      · cases hflag
    refine .before (by omega) (by omega) hloop ?_
    rw [hpending, show s.pending = valuesIn (s.blobs 1) by simp [pending, hs]]
    cases hparses with
    | missing hmissing _ hblobs _ =>
      have hhead : (s.blobs 1).head? ≠ some (asn1ContextC 0) := by
        obtain hnil | hhead := hmissing
        · rw [List.length_eq_zero_iff.mp hnil]
          simp
        · exact hhead
      rw [valuesIn, if_neg hhead, hblobs]
    | @element tlv content rest inner hthere helement _ _ hblobs _ =>
      have hhead : (s.blobs 1).head? = some (asn1ContextC 0) := by
        by_contra hhead
        exact hthere (.inr rfl) (.inr hhead)
      have helement : asn1Element (s.blobs 1) = some (tlv, content, rest) := helement
      rw [valuesIn, if_pos hhead, helement, hblobs]
      rfl
  | values =>
    cases hparses with
    | missing _ hflags _ _ => simp at hflags
    | @element tlv content rest inner _ helement htype hinner hblobs hloop =>
      obtain rfl : inner = content := by simpa using hinner
      have hblobs : t.blobs 2 = inner := by rw [hblobs, Function.update_self]
      have hpending : s.pending = some (t.blobs 2) := by
        have htag : tlv.head? = some asn1Sequence := by simpa using htype
        have helement : asn1Element (s.blobs 1) = some (tlv, inner, rest) := helement
        simp [pending, hs, ofSequence, helement, htag, hblobs]
      obtain ⟨hloop, hempty⟩ | ⟨-, hne, htnext, hloop⟩ := hloop
      · have hnil : inner = [] := by simpa using hempty
        exact .empty hs (by simpa using hnext') hloop hpending (hblobs.trans hnil)
      · exact .start hs htnext hloop hpending (hblobs ▸ hne)
  | value hline htype =>
    have htnext : t.next = line + 1 ∨ t.next = line + 2 := by
      simp only [true_and] at hnext'
      omega
    obtain ⟨hloop, ⟨hblobs, hne⟩ | ⟨tag, tlv, content, hhead, htag, helement⟩⟩ :=
      step_value hline htype hparses
    · refine .skip (by omega) (by omega) hloop hblobs fun h => ?_
      have := takenBy_cases (s.blobs 2)
      omega
    · exact .take (by omega) (by omega) hloop hhead htag helement
  | endAuthority | endValues => cases hclose
  | endValue => cases hclose

/-- **What a step does** -/
theorem Ietf.step_cases (hi : Ietf s) (h : s.iterate = (t, some r)) : IetfStep s t := by
  obtain ⟨-, hmoves⟩ := iterate_cases h
  cases hmoves with
  | close hobj hexit hclose hdone hnext hblobs hloop =>
    rw [hi.table] at hobj hnext
    exact hi.step_close hobj hexit hclose hdone hnext hblobs hloop
  | parse hobj hexit hclose hnext hparses =>
    rw [hi.table] at hobj hnext
    exact step_parse hobj hexit hclose hnext hparses
  | again hagain hobj hnext hparses =>
    obtain ⟨hten, rfl, hne⟩ := hi.again hagain
    rw [hi.table] at hobj hnext
    cases hobj
    have hline : IetfLine 4 ⟨2, asn1OctetString, { option := true, body := true }⟩ :=
      .value (.inl rfl) rfl
    have htnext : t.next = 5 ∨ t.next = 6 := by simpa using hline.next hnext
    obtain ⟨hloop, ⟨hblobs, htaken⟩ | ⟨tag, tlv, content, hhead, htag, helement⟩⟩ :=
      step_value (by decide) (by decide) hparses
    · exact .again hten htnext hloop hblobs hne htaken
    · exact .take (by omega) (by omega) hloop hhead htag helement

theorem Ietf.among (hi : Ietf s) (hkeeps : Keeps s t) (hline : 4 ≤ s.next ∧ s.next ≤ 10)
    (hnext : 4 < t.next ∧ t.next ≤ 10) (hloop : t.loopAddr = s.loopAddr)
    (hne : t.blobs 2 ≠ [] → s.blobs 2 ≠ []) : Ietf t := by
  refine ⟨hkeeps.objects.trans hi.table, hkeeps.success, by omega, fun level hlevel => ?_,
    fun _ _ hblobs => ?_, by omega⟩
  · rw [hloop] at hlevel ⊢
    obtain ⟨hlevel, haddr, -⟩ := hi.loop level hlevel
    exact ⟨hlevel, haddr, by omega, hnext.2⟩
  · rw [hloop]
    exact hi.runs hline.1 hline.2 (hne hblobs)

/-- **A step keeps the invariant.** -/
theorem Ietf.step (hi : Ietf s) (h : s.iterate = (t, some r)) : Ietf t := by
  have hkeeps := (iterate_cases h).1
  have htable := hkeeps.objects.trans hi.table
  cases hi.step_cases h with
  | before hline hnext hloop _ =>
    refine ⟨htable, hkeeps.success, by omega, fun level hlevel => ?_, by omega, by omega⟩
    have := hi.loop level (hloop ▸ hlevel)
    omega
  | start hline hnext hloop _ hne =>
    refine ⟨htable, hkeeps.success, by omega, fun level hlevel => ?_, fun _ _ _ => ?_,
      fun _ _ => hne⟩
    · rw [hloop, Function.update_apply] at hlevel ⊢
      split_ifs at hlevel ⊢ with heq
      · exact ⟨heq, rfl, by omega, by omega⟩
      · have := hi.loop level hlevel
        omega
    · rw [hloop, Function.update_self]
  | empty hline hnext hloop _ hnil =>
    refine ⟨htable, hkeeps.success, by omega, fun level hlevel => ?_, fun _ _ hne => ?_,
      fun _ hrun => ?_⟩
    · have := hi.loop level (hloop ▸ hlevel)
      omega
    · exact absurd hnil hne
    · have := hi.loop 1 (hloop ▸ hrun)
      omega
  | take hline hnext hloop hhead _ _ =>
    refine hi.among hkeeps hline hnext hloop fun _ hnil => ?_
    rw [hnil] at hhead
    cases hhead
  | skip hline hnext hloop hblobs _ =>
    exact hi.among hkeeps (by omega) (by omega) hloop fun h => hblobs ▸ h
  | again hline hnext hloop _ hne _ =>
    exact hi.among hkeeps (by omega) (by omega) hloop fun _ => hne
  | beyond hline hnext hloop _ _ =>
    refine ⟨htable, hkeeps.success, by omega, fun level hlevel => ?_, by omega, by omega⟩
    rw [hloop, Function.update_apply] at hlevel
    split_ifs at hlevel with heq
    · exact absurd rfl hlevel
    · exact absurd (hi.loop level hlevel).1 heq

/-- The parser gets stuck at one of the values that are still to come. -/
def StuckAhead (s : Asn1Parser) : Prop := ∃ values ∈ s.pending, Stuck values

theorem pending_of_le (hle : 4 ≤ s.next) (hnext : s.next ≤ 10) : s.pending = some (s.blobs 2) := by
  unfold pending
  rw [if_neg (by omega), if_neg (by omega), if_neg (by omega), if_pos hnext]

theorem stuckAhead_iff {values : Chunk} (h : s.pending = some values) :
    s.StuckAhead ↔ Stuck values := by
  simp [StuckAhead, h]

/-- **What the parser gets stuck at stays ahead.** -/
theorem Ietf.stuckAhead_iff (hi : Ietf s) (h : s.iterate = (t, some r)) :
    t.StuckAhead ↔ s.StuckAhead := by
  cases hi.step_cases h with
  | before _ _ _ hpending => rw [StuckAhead, hpending, StuckAhead]
  | start _ hnext _ hpending _ =>
    rw [Asn1Parser.stuckAhead_iff hpending,
      Asn1Parser.stuckAhead_iff (pending_of_le (by omega) (by omega))]
  | empty _ hnext _ hpending hnil =>
    rw [Asn1Parser.stuckAhead_iff hpending, hnil]
    refine iff_of_false ?_ not_stuck_nil
    rintro ⟨values, hvalues, hstuck⟩
    obtain hfour | heleven := hnext
    · rw [pending_of_le (by omega) (by omega), hnil] at hvalues
      cases hvalues
      exact not_stuck_nil hstuck
    · simp [pending, heleven] at hvalues
  | take hline hnext _ hhead htag helement =>
    rw [Asn1Parser.stuckAhead_iff (pending_of_le hline.1 hline.2),
      Asn1Parser.stuckAhead_iff (pending_of_le (by omega) hnext.2)]
    exact stuck_rest_iff hhead htag helement
  | skip hline hnext _ hblobs _ =>
    rw [Asn1Parser.stuckAhead_iff (pending_of_le hline (by omega)),
      Asn1Parser.stuckAhead_iff (pending_of_le (by omega) hnext.2), hblobs]
  | again hline hnext _ hblobs _ _ =>
    rw [Asn1Parser.stuckAhead_iff (pending_of_le (by omega) hline.le),
      Asn1Parser.stuckAhead_iff (pending_of_le (by omega) (by omega)), hblobs]
  | beyond hline hnext _ _ hdone =>
    have hnil : s.blobs 2 = [] := by
      by_contra hne
      obtain hdone | hdone := hdone
      · have := hi.runs (by omega) hline.le hne
        omega
      · exact hne hdone
    rw [Asn1Parser.stuckAhead_iff (pending_of_le (by omega) hline.le), hnil]
    refine iff_of_false ?_ not_stuck_nil
    simp [StuckAhead, pending, hnext]

/-! ## Blobs without such a value -/

theorem takenBy_of_not_stuck {values : Chunk} (hne : values ≠ []) (h : ¬ Stuck values) :
    takenBy values = 4 ∨ takenBy values = 6 ∨ takenBy values = 8 := by
  cases values with
  | nil => exact absurd rfl hne
  | cons tag values =>
    rw [← takenBy_of_mem (show (tag :: values).head? = some tag from rfl)]
    by_contra htag
    exact h (.here htag)

/-- What is left to do: the lines before the values, then the values, and for one of them the lines up
to that which takes it. -/
def ietfRank (s : Asn1Parser) : ℕ ×ₗ ℕ :=
  toLex (4 - s.next, 40 * (s.blobs 2).length +
    (if s.next ≤ takenBy (s.blobs 2) then 0 else 20) + (12 - s.next))

theorem length_lt_of_asn1Element {blob tlv content rest : Chunk}
    (h : asn1Element blob = some (tlv, content, rest)) : rest.length < blob.length := by
  obtain ⟨hblob, -, hlen⟩ := asn1Element_some h
  rw [hblob, List.length_append]
  omega

theorem Ietf.not_stuck (hstuck : ¬ s.StuckAhead) (hle : 4 ≤ s.next) (hnext : s.next ≤ 10) :
    ¬ Stuck (s.blobs 2) := by
  rwa [← Asn1Parser.stuckAhead_iff (pending_of_le hle hnext)]

theorem Ietf.rank_lt (hi : Ietf s) (hstuck : ¬ s.StuckAhead) (h : s.iterate = (t, some r)) :
    t.ietfRank < s.ietfRank := by
  have ht := (hi.step h).next
  have hfirst : 4 - t.next < 4 - s.next → t.ietfRank < s.ietfRank := fun h =>
    Prod.Lex.toLex_lt_toLex.mpr (.inl h)
  have hrest : 4 ≤ s.next → s.next ≤ 10 → 4 < t.next →
      40 * (t.blobs 2).length + (if t.next ≤ takenBy (t.blobs 2) then 0 else 20) + (12 - t.next) <
        40 * (s.blobs 2).length + (if s.next ≤ takenBy (s.blobs 2) then 0 else 20) +
          (12 - s.next) → t.ietfRank < s.ietfRank := fun _ _ _ h =>
    Prod.Lex.toLex_lt_toLex.mpr (.inr ⟨by dsimp only; omega, h⟩)
  cases hi.step_cases h with
  | before hline hnext _ _ => exact hfirst (by omega)
  | start hline hnext _ _ _ => exact hfirst (by omega)
  | empty hline hnext _ _ _ => exact hfirst (by omega)
  | take hline hnext _ _ _ helement =>
    have := length_lt_of_asn1Element helement
    refine hrest hline.1 hline.2 hnext.1 ?_
    split_ifs <;> omega
  | skip hline hnext _ hblobs htaken =>
    refine hrest hline (by omega) (by omega) ?_
    rw [hblobs]
    split_ifs <;> omega
  | again hline hnext _ hblobs hne hfour =>
    have := takenBy_of_not_stuck hne (Ietf.not_stuck hstuck (by omega) (by omega))
    refine hrest (by omega) (by omega) (by omega) ?_
    rw [hblobs]
    split_ifs <;> omega
  | beyond hline hnext _ hblobs _ =>
    have := takenBy_cases (s.blobs 2)
    refine hrest (by omega) (by omega) (by omega) ?_
    rw [hblobs]
    split_ifs <;> omega

theorem Ietf.atEnd (hi : Ietf s) (h : s.AtEnd level) : level = 1 ∧ s.next = 10 := by
  obtain ⟨hloop, obj, hobj, hclose, rfl⟩ := h
  obtain ⟨hlevel, -, hle, hnext⟩ := hi.loop obj.level hloop
  refine ⟨hlevel, ?_⟩
  rw [hi.table] at hobj
  have hexit : obj.flags.exit = false := by
    by_contra hexit
    exact absurd (ietf_exit s.next hi.next obj hobj (by simpa using hexit)) (by omega)
  generalize s.next = line at hobj hle hnext
  cases ietfLine hobj hexit with
  | endValues => rfl
  | endAuthority => omega
  | endValue => cases hlevel
  | outer | authority | values => cases hclose
  | value => cases hclose

/-- A value that an iteration began with is taken, or the line that takes it is still to come. -/
def Progress (values : Chunk) (s : Asn1Parser) : Prop :=
  (s.blobs 2).length < values.length ∨ s.blobs 2 = values ∧ s.next ≤ takenBy values

theorem Ietf.progress (hi : Ietf s) (h : s.iterate = (t, some r)) (hloop : t.loopAddr 1 ≠ 0)
    (hle : 4 ≤ s.next) {values : Chunk} (hprogress : Progress values s) : Progress values t := by
  cases hi.step_cases h with
  | before hline _ _ _ => omega
  | start hline _ _ _ _ => omega
  | empty hline _ _ _ _ => omega
  | take _ _ _ _ _ helement =>
    have hlt := length_lt_of_asn1Element helement
    obtain hless | ⟨heq, -⟩ := hprogress
    · exact .inl (hlt.trans hless)
    · exact .inl (heq ▸ hlt)
  | skip _ _ _ hblobs htaken =>
    obtain hless | ⟨heq, hnext⟩ := hprogress
    · exact .inl (hblobs ▸ hless)
    · exact .inr ⟨hblobs.trans heq, heq ▸ htaken (heq ▸ hnext)⟩
  | again hline _ _ hblobs _ _ =>
    obtain hless | ⟨-, hnext⟩ := hprogress
    · exact .inl (hblobs ▸ hless)
    · have := takenBy_cases values
      omega
  | beyond _ _ hzero _ _ =>
    rw [hzero, Function.update_self] at hloop
    exact absurd rfl hloop

/-- **The first step of an iteration** takes the value, or leaves it for a later line. -/
theorem Ietf.progress_begins (hi : Ietf s) (hstuck : ¬ s.StuckAhead) (hbegins : s.Begins level)
    (h : s.iterate = (t, some r)) (hloop : t.loopAddr 1 ≠ 0) : Progress (s.blobs 2) t := by
  obtain ⟨hrun, hbegins⟩ := hbegins
  obtain ⟨rfl, haddr, hle, hnext⟩ := hi.loop level hrun
  have hne : s.blobs 2 ≠ [] := by
    obtain hfirst | ⟨-, hne⟩ := hbegins
    · exact hi.first (hfirst.trans haddr) hrun
    · exact hne
  have htaken := takenBy_of_not_stuck hne (Ietf.not_stuck hstuck hle hnext)
  obtain hfirst | ⟨hend, -⟩ := hbegins
  · exact hi.progress h hloop hle (.inr ⟨rfl, by omega⟩)
  · have hten := (hi.atEnd hend).2
    cases hi.step_cases h with
    | before hline _ _ _ => omega
    | start hline _ _ _ _ => omega
    | empty hline _ _ _ _ => omega
    | take _ _ _ _ _ helement => exact .inl (length_lt_of_asn1Element helement)
    | skip _ hnext' _ _ _ => omega
    | again _ hnext' _ hblobs _ hfour => exact .inr ⟨hblobs, by omega⟩
    | beyond _ _ hzero _ _ =>
      rw [hzero, Function.update_self] at hloop
      exact absurd rfl hloop

theorem ietf_create (implicit : Bool) (blob : Chunk) :
    Ietf { create X509Ac.ietfAttrSyntaxObjects blob with implicit := implicit } :=
  ⟨rfl, rfl, Nat.succ_pos 11, fun _ h => absurd rfl h, nofun, nofun⟩

/-- **Without a value that the parser gets stuck at, parsing ends.** -/
theorem ietf_ends {implicit : Bool} {blob : Chunk}
    (h : ∀ values ∈ ietfValues implicit blob, ¬ Stuck values) :
    Ends { create X509Ac.ietfAttrSyntaxObjects blob with implicit := implicit } := by
  set parser : Asn1Parser :=
    { create X509Ac.ietfAttrSyntaxObjects blob with implicit := implicit } with hparser
  have hinit : Ietf parser ∧ ¬ parser.StuckAhead :=
    ⟨ietf_create implicit blob, fun ⟨values, hvalues, hstuck⟩ => h values hvalues hstuck⟩
  have hstep : ∀ {s t r}, Ietf s ∧ ¬ s.StuckAhead → s.iterate = (t, some r) →
      Ietf t ∧ ¬ t.StuckAhead := fun ⟨hi, hstuck⟩ h =>
    ⟨hi.step h, fun hs => hstuck ((hi.stuckAhead_iff h).mp hs)⟩
  have hrun : ∀ {es s}, LTS.Run parser.system es s → Ietf s ∧ ¬ s.StuckAhead := fun h =>
    h.invariant (fun h => h ▸ hinit) hstep
  refine ⟨?_, fun {es es' s t level} hreach hbegins hne hsteps hend => ?_, fun {es s} h => ?_⟩
  · exact terminates_of_rank (I := fun s => Ietf s ∧ ¬ s.StuckAhead) ietfRank
      (fun hi h => ⟨hstep hi h, hi.1.rank_lt hi.2 h⟩) hinit
  · obtain ⟨hi, hstuck⟩ := hrun hreach
    obtain ⟨rfl, -⟩ := hi.loop level hbegins.1
    obtain ⟨e, es', rfl⟩ := List.exists_cons_of_ne_nil hne
    obtain ⟨u, hfirst, hrest⟩ := LTS.Steps.of_append (List.singleton_append ▸ hsteps)
    obtain ⟨hiterate, hloop⟩ := LTS.steps_singleton.mp hfirst
    have hlast : Ietf t ∧ t.loopAddr 1 ≠ 0 ∧ Progress (s.blobs 2) t := by
      refine hrest.preserves (C := fun _ => True)
        (I := fun u => Ietf u ∧ u.loopAddr 1 ≠ 0 ∧ Progress (s.blobs 2) u) ?_ (fun _ _ => trivial)
        ⟨hi.step hiterate, hloop, hi.progress_begins hstuck hbegins hiterate hloop⟩
      rintro u e v - ⟨hi, hloop, hprogress⟩ ⟨hstep, hloop'⟩
      exact ⟨hi.step hstep, hloop', hi.progress hstep hloop' (hi.loop 1 hloop).2.2.1 hprogress⟩
    obtain ⟨hi, -, hless | ⟨-, hnext⟩⟩ := hlast
    · exact hless
    · have hten := (hi.atEnd hend).2
      have := takenBy_cases (s.blobs 2)
      omega
  · obtain ⟨hi, -⟩ := hrun h
    refine ⟨?_, fun level => ?_, ?_⟩
    · rw [hi.table]
      exact hi.next
    · rw [hi.table]
      by_contra hlarge
      have := (hi.loop level (fun hzero => hlarge (hzero ▸ by decide))).2.1
      exact hlarge (this ▸ by decide)
    · rw [hi.table]
      decide

/-! ## Blobs with such a value -/

theorem parseObject_isSome (hsuccess : this.success = true) (hchoice : obj.flags.choice = false)
    (h : obj.flags.option = true ∧ this.Missing obj ∨ ∃ tlv content rest,
      asn1Element (this.blobs obj.level) = some (tlv, content, rest) ∧
        (tlv.head? = some obj.type ∨ this.implicit = true ∧ line = 0)) :
    ∃ parser r, parseObject { this with next := line + 1 } obj = (parser, some r) := by
  have hdone : ∀ {parser : Asn1Parser} {object : Chunk}, parser.success = true →
      ∃ parser' r, parser.done object = (parser', some r) := fun hsuccess => by
    simp [done, hsuccess]
  unfold parseObject
  dsimp only
  split
  · exact hdone hsuccess
  split
  · exact hdone hsuccess
  rename_i hoption
  obtain hmissing | ⟨tlv, content, rest, helement, htype⟩ := h
  · exact absurd hmissing hoption
  have hmatch : ¬ (tlv.head? ≠ some obj.type ∧ ¬ (this.implicit = true ∧ line + 1 = 1)) := by
    rintro ⟨hhead, himplicit⟩
    obtain htype | ⟨htype, rfl⟩ := htype
    · exact hhead htype
    · exact himplicit ⟨htype, rfl⟩
  simp only [helement, hchoice, Bool.false_eq_true, false_and, if_false]
  split
  · exact hdone hsuccess
  unfold returnObject
  simp only [hchoice, Bool.false_eq_true, false_and, if_false]
  split
  · exact hdone hsuccess
  · apply hdone
    split <;> exact hsuccess

theorem endObject_isSome (hsuccess : this.success = true) (hchoice : obj.flags.choice = false)
    (hch : obj.flags.ch = false) : ∃ parser r, this.endObject obj = (parser, some r) := by
  simp [endObject, hchoice, hch, done, hsuccess]

theorem value_isSome (hsuccess : s.success = true) (hstuck : Stuck (s.blobs 2)) {type : U8}
    (hline : line = 4 ∨ line = 6 ∨ line = 8) (htype : takenBy [type] = line) :
    ∃ parser r, parseObject { s with next := line + 1 }
      ⟨2, type, { option := true, body := true }⟩ = (parser, some r) := by
  refine parseObject_isSome hsuccess rfl ?_
  by_cases hhead : (s.blobs 2).head? = some type
  · have htag : type ∈ valueTags := by
      rw [takenBy_of_mem (show [type].head? = some type from rfl)]
      omega
    generalize hblob : s.blobs 2 = blob at hstuck hhead
    cases hstuck with
    | here hother =>
      cases hhead
      exact absurd htag hother
    | @later tag blob tlv content rest _ helement _ =>
      cases hhead
      refine .inr ⟨tlv, content, rest, helement, .inl ?_⟩
      rw [head?_of_asn1Element helement]
      rfl
  · exact .inl ⟨rfl, .inr hhead⟩

theorem ofSequence_some {implicit : Bool} {blob content : Chunk}
    (h : ofSequence implicit blob = some content) :
    ∃ tlv rest, asn1Element blob = some (tlv, content, rest) ∧
      (tlv.head? = some asn1Sequence ∨ implicit = true) := by
  obtain ⟨⟨tlv, content', rest⟩, helement, h⟩ := Option.bind_eq_some_iff.mp h
  dsimp only at h
  split_ifs at h with htype
  cases h
  exact ⟨tlv, rest, helement, htype.symm⟩

theorem Ietf.parseObject_isSome (hi : Ietf s) (hstuck : s.StuckAhead) (hline : IetfLine s.next obj)
    (hclose : obj.flags.close = false) :
    ∃ t r, parseObject { s with next := s.next + 1 } obj = (t, some r) := by
  obtain ⟨values, hvalues, hstuck⟩ := hstuck
  generalize hs : s.next = line at hline
  cases hline with
  | outer =>
    have hvalues : ietfValues s.implicit (s.blobs 0) = some values := by
      simpa [pending, hs] using hvalues
    obtain ⟨content, hcontent, -⟩ := Option.bind_eq_some_iff.mp hvalues
    obtain ⟨tlv, rest, helement, htype⟩ := ofSequence_some hcontent
    exact Asn1Parser.parseObject_isSome hi.success rfl
      (.inr ⟨tlv, content, rest, helement, htype.imp id fun h => ⟨h, rfl⟩⟩)
  | authority =>
    have hvalues : valuesIn (s.blobs 1) = some values := by simpa [pending, hs] using hvalues
    refine Asn1Parser.parseObject_isSome hi.success rfl ?_
    unfold valuesIn at hvalues
    split_ifs at hvalues with hhead
    · obtain ⟨⟨tlv, content, rest⟩, helement, -⟩ := Option.bind_eq_some_iff.mp hvalues
      exact .inr ⟨tlv, content, rest, helement, .inl ((head?_of_asn1Element helement).trans hhead)⟩
    · exact .inl ⟨rfl, .inr hhead⟩
  | values =>
    have hvalues : ofSequence false (s.blobs 1) = some values := by
      simpa [pending, hs] using hvalues
    obtain ⟨tlv, rest, helement, htype⟩ := ofSequence_some hvalues
    refine Asn1Parser.parseObject_isSome hi.success rfl (.inr ⟨tlv, values, rest, helement, .inl ?_⟩)
    simpa using htype
  | value hline htype =>
    rw [pending_of_le (by omega) (by omega)] at hvalues
    cases hvalues
    exact value_isSome hi.success hstuck hline htype
  | endAuthority | endValues => cases hclose
  | endValue => cases hclose

/-- **With a value that the parser gets stuck at, there is always a next step.** -/
theorem Ietf.iterate_isSome (hi : Ietf s) (hstuck : s.StuckAhead) :
    ∃ t r, s.iterate = (t, some r) := by
  obtain ⟨obj, hobj⟩ : ∃ obj, X509Ac.ietfAttrSyntaxObjects[s.next]? = some obj :=
    ⟨_, List.getElem?_eq_getElem hi.next⟩
  have hexit : obj.flags.exit = false := by
    by_contra hexit
    obtain ⟨values, hvalues, -⟩ := hstuck
    have heleven := ietf_exit s.next hi.next obj hobj (by simpa using hexit)
    simp [pending, heleven] at hvalues
  have hline := ietfLine hobj hexit
  have hobj' : s.objects[s.next]? = some obj := hi.table ▸ hobj
  unfold iterate
  simp only [hobj', hexit, Bool.false_eq_true, if_false]
  cases hclose : obj.flags.close with
  | false => simpa using hi.parseObject_isSome hstuck hline hclose
  | true =>
    rw [if_pos rfl]
    split_ifs with hagain
    · -- another iteration
      have hlevel := hi.loop obj.level hagain.1
      have hfirst : s.objects[4]? =
          some ⟨2, asn1OctetString, { option := true, body := true }⟩ := hi.table ▸ rfl
      simp only [hlevel.2.1, hfirst]
      rw [Asn1Parser.stuckAhead_iff (pending_of_le hlevel.2.2.1 hlevel.2.2.2)] at hstuck
      exact value_isSome hi.success hstuck (.inl rfl) rfl
    · have hplain : obj.flags.choice = false ∧ obj.flags.ch = false := by
        generalize s.next = line at hline
        cases hline with
        | endAuthority | endValues => exact ⟨rfl, rfl⟩
        | endValue => exact ⟨rfl, rfl⟩
        | outer | authority | values => cases hclose
        | value => cases hclose
      exact endObject_isSome hi.success hplain.1 hplain.2

theorem Ietf.not_terminates (hi : Ietf s) (hstuck : s.StuckAhead) (fuel : ℕ) :
    run (fun _ _ s => (s, true)) fuel s () = none := by
  induction fuel generalizing s with
  | zero => rfl
  | succ fuel ih =>
    obtain ⟨t, ⟨objectID, data⟩, h⟩ := hi.iterate_isSome hstuck
    rw [run_step h rfl]
    exact ih (hi.step h) ((hi.stuckAhead_iff h).mpr hstuck)

/-- **Parsing an `ietfAttrSyntax` ends unless there is a value that the parser gets stuck at.** -/
theorem ietf_ends_iff (implicit : Bool) (blob : Chunk) :
    Ends { create X509Ac.ietfAttrSyntaxObjects blob with implicit := implicit } ↔
      ∀ values ∈ ietfValues implicit blob, ¬ Stuck values := by
  refine ⟨fun h values hvalues hstuck => ?_, ietf_ends⟩
  obtain ⟨fuel, hfuel⟩ := h.terminates
  rw [(ietf_create implicit blob).not_terminates ⟨values, hvalues, hstuck⟩] at hfuel
  cases hfuel

/-! ## Steps with `extensionRequestObjects` -/

theorem extensionRequest_close : ∀ line < 7, ∀ obj ∈ X509Pkcs10.extensionRequestObjects[line]?,
    obj.flags.close = true → obj.level = 1 := by
  decide

theorem extensionRequest_line : ∀ line < 7, ∀ obj ∈ X509Pkcs10.extensionRequestObjects[line]?,
    obj.flags.exit = false → line ≠ 0 → line < 6 ∧ obj.flags.loop = false ∧
      targets X509Pkcs10.extensionRequestObjects line obj = [line + 1] := by
  decide

/-- What holds between two steps: only the loop of the extensions runs, and it has items. -/
structure ExtensionRequest (s : Asn1Parser) : Prop where
  table : s.objects = X509Pkcs10.extensionRequestObjects
  success : s.success = true
  next : s.next < 7
  loop : ∀ level, s.loopAddr level ≠ 0 → level = 0 ∧ s.loopAddr level = 1
  items : s.next = 0 → ofSequence s.implicit (s.blobs 0) ≠ some []

theorem ExtensionRequest.not_end (hi : ExtensionRequest s)
    (hobj : s.objects[s.next]? = some obj) (hclose : obj.flags.close = true) :
    s.loopAddr obj.level = 0 := by
  by_contra hloop
  rw [hi.table] at hobj
  have := extensionRequest_close s.next hi.next obj hobj hclose
  have := (hi.loop obj.level hloop).1
  omega

theorem ExtensionRequest.loop_of (hi : ExtensionRequest s)
    (hloop : ∀ level, t.loopAddr level = s.loopAddr level ∨ t.loopAddr level = 0 ∨
      level = 0 ∧ t.loopAddr level = 1) :
    ∀ level, t.loopAddr level ≠ 0 → level = 0 ∧ t.loopAddr level = 1 := by
  intro level hlevel
  obtain hsame | hzero | hone := hloop level
  · rw [hsame] at hlevel ⊢
    exact hi.loop level hlevel
  · exact absurd hzero hlevel
  · exact hone

/-- **A step keeps the invariant and comes to a later line.** -/
theorem ExtensionRequest.step (hi : ExtensionRequest s) (h : s.iterate = (t, some r)) :
    ExtensionRequest t ∧ s.next < t.next := by
  obtain ⟨hkeeps, hmoves⟩ := iterate_cases h
  have htable := hkeeps.objects.trans hi.table
  cases hmoves with
  | again hagain _ _ _ =>
    obtain ⟨last, hlast, -, hclose, haddr, hline, -⟩ := hagain
    exact absurd (hi.not_end hlast hclose) (haddr ▸ hline)
  | @close obj hobj hexit hclose _ hnext _ hloop =>
    rw [hi.table] at hobj hnext
    have hline : s.next ≠ 0 := by
      rintro hzero
      rw [hzero] at hobj
      cases hobj
      cases hclose
    obtain ⟨hlt, -, htargets⟩ := extensionRequest_line s.next hi.next obj hobj hexit hline
    rw [htargets, List.mem_singleton] at hnext
    refine ⟨⟨htable, hkeeps.success, by omega, hi.loop_of fun level => ?_, by omega⟩, by omega⟩
    rw [hloop, Function.update_apply]
    split_ifs
    · exact .inr (.inl rfl)
    · exact .inl rfl
  | @parse obj hobj hexit _ hnext hparses =>
    rw [hi.table] at hobj hnext
    obtain hzero | hline := eq_or_ne s.next 0
    · rw [hzero] at hobj hparses
      cases hobj
      cases hparses with
      | missing _ hflags _ _ => simp at hflags
      | @element tlv content rest inner _ helement htype _ _ hloop =>
        obtain ⟨-, hempty⟩ | ⟨-, -, hone, hloop⟩ := hloop
        · -- no items, but there are some
          have hnil : content = [] := by simpa using hempty
          refine absurd ?_ (hi.items hzero)
          have helement : asn1Element (s.blobs 0) = some (tlv, content, rest) := helement
          simp only [ofSequence, helement, Option.bind_some]
          rw [if_pos (by simpa [or_comm] using htype), hnil]
        · refine ⟨⟨htable, hkeeps.success, by omega, hi.loop_of fun level => ?_, by omega⟩, by omega⟩
          rw [hloop, Function.update_apply]
          split_ifs with heq
          · exact .inr (.inr ⟨heq, rfl⟩)
          · exact .inl rfl
    · obtain ⟨hlt, hflag, htargets⟩ := extensionRequest_line s.next hi.next obj hobj hexit hline
      rw [htargets, List.mem_singleton] at hnext
      refine ⟨⟨htable, hkeeps.success, by omega, hi.loop_of fun level => ?_, by omega⟩, by omega⟩
      obtain hsame | ⟨-, hflag', -⟩ := hparses.loopAddr level
      · exact .inl hsame
      · rw [hflag] at hflag'
        cases hflag'

/-- **With items in the loop, parsing ends.** -/
theorem extensionRequest_ends {implicit : Bool} {blob : Chunk}
    (h : ofSequence implicit blob ≠ some []) :
    Ends { create X509Pkcs10.extensionRequestObjects blob with implicit := implicit } := by
  set parser : Asn1Parser :=
    { create X509Pkcs10.extensionRequestObjects blob with implicit := implicit } with hparser
  have hinit : ExtensionRequest parser :=
    ⟨rfl, rfl, Nat.succ_pos 6, fun _ h => absurd rfl h, fun _ => h⟩
  have hrun : ∀ {es s}, LTS.Run parser.system es s → ExtensionRequest s := fun h =>
    h.invariant (fun h => h ▸ hinit) fun hi h => (hi.step h).1
  refine ⟨?_, fun {es es' s t level} hreach hbegins hne hsteps hend => ?_, fun {es s} h => ?_⟩
  · refine terminates_of_rank (I := ExtensionRequest) (fun s => 7 - s.next) (fun hi h => ?_) hinit
    have hstep := hi.step h
    have := hi.next
    exact ⟨hstep.1, by omega⟩
  · have hi : ExtensionRequest t := hsteps.preserves (C := fun _ => True)
      (fun _ hi h => (hi.step h.1).1) (fun _ _ => trivial) (hrun hreach)
    obtain ⟨hloop, obj, hobj, hclose, rfl⟩ := hend
    exact absurd (hi.not_end hobj hclose) hloop
  · have hi := hrun h
    refine ⟨?_, fun level => ?_, ?_⟩
    · rw [hi.table]
      exact hi.next
    · rw [hi.table]
      by_contra hlarge
      have := (hi.loop level (fun hzero => hlarge (hzero ▸ by decide))).2
      exact hlarge (this ▸ by decide)
    · rw [hi.table]
      decide

/-- **Without items, the search for the end of the loop leaves the table.** -/
theorem extensionRequest_not_ends {implicit : Bool} {blob : Chunk}
    (h : ofSequence implicit blob = some []) :
    ¬ Ends { create X509Pkcs10.extensionRequestObjects blob with implicit := implicit } := by
  obtain ⟨tlv, rest, helement, htype⟩ := ofSequence_some h
  set parser : Asn1Parser :=
    { create X509Pkcs10.extensionRequestObjects blob with implicit := implicit } with hparser
  have hobj : parser.objects[parser.next]? = some ⟨0, asn1Sequence, { loop := true }⟩ := rfl
  have hblob : parser.blobs 0 = blob := rfl
  have hmatch : ¬ (tlv.head? ≠ some asn1Sequence ∧
      ¬ (parser.implicit = true ∧ parser.next + 1 = 1)) := by
    rintro ⟨hhead, himplicit⟩
    exact htype.elim hhead fun h => himplicit ⟨h, rfl⟩
  have hiterate : ∃ t r, parser.iterate = (t, some r) ∧ t.objects.length = 7 ∧ t.next = 8 := by
    unfold iterate
    simp only [hobj, Bool.false_eq_true, if_false]
    unfold parseObject
    simp only [hblob, helement, if_neg hmatch, Bool.false_eq_true, false_and, if_false]
    unfold returnObject
    simp only [List.length_nil, and_self, if_true]
    exact ⟨_, _, rfl, rfl, rfl⟩
  obtain ⟨t, r, hiterate, hlength, hnext⟩ := hiterate
  intro hends
  have hrun : LTS.Run parser.system [r] t := ⟨parser, rfl, LTS.steps_singleton.mpr hiterate⟩
  have := (hends.inBounds hrun).next
  omega

/-! ## Exactly when parsing ends -/

theorem sound_or : ∀ objects ∈ all, Sound objects ∨ objects = X509Ac.ietfAttrSyntaxObjects ∨
    objects = X509Pkcs10.extensionRequestObjects := by
  decide +kernel

/-- When parsing a blob with a table ends: an `ietfAttrSyntax` has no value that the parser gets stuck
at, and an extension request is not an empty `SEQUENCE`. -/
structure EndsWhen (objects : List Asn1Object) (implicit : Bool) (blob : Chunk) : Prop where
  ietf : objects = X509Ac.ietfAttrSyntaxObjects →
    ∀ values ∈ ietfValues implicit blob, ¬ Stuck values
  extensionRequest : objects = X509Pkcs10.extensionRequestObjects →
    ofSequence implicit blob ≠ some []

/-- **Parsing ends, if and only if** the blob has no value that no line takes and no loop whose end is
not found. -/
theorem ends_iff (objects : List Asn1Object) (hobjects : objects ∈ all) (implicit : Bool)
    (blob : Chunk) :
    Ends { create objects blob with implicit := implicit } ↔ EndsWhen objects implicit blob := by
  obtain hsound | rfl | rfl := sound_or objects hobjects
  · refine iff_of_true (ends_of_sound hsound implicit blob) ⟨?_, ?_⟩
    · rintro rfl
      exact absurd hsound (by decide)
    · rintro rfl
      exact absurd hsound (by decide)
  · rw [ietf_ends_iff]
    exact ⟨fun h => ⟨fun _ => h, fun heq => absurd heq (by decide)⟩, fun h => h.ietf rfl⟩
  · refine ⟨fun h => ⟨fun heq => absurd heq (by decide), fun _ hempty => ?_⟩,
      fun h => extensionRequest_ends (h.extensionRequest rfl)⟩
    exact extensionRequest_not_ends hempty h

/-- An extension request with one extension -/
theorem ends_iff_extension :
    Ends { create X509Pkcs10.extensionRequestObjects
        [0x30, 0x07, 0x30, 0x05, 0x06, 0x01, 0x2A, 0x04, 0x00] with implicit := false } ↔
      EndsWhen X509Pkcs10.extensionRequestObjects false
        [0x30, 0x07, 0x30, 0x05, 0x06, 0x01, 0x2A, 0x04, 0x00] :=
  ends_iff _ (by decide +kernel) _ _

/-- A boolean among the values of an `ietfAttrSyntax` -/
theorem not_ends : ¬ ∀ objects ∈ all, ∀ (implicit : Bool) (blob : Chunk),
    Ends { create objects blob with implicit := implicit } := by
  intro h
  have hends := h X509Ac.ietfAttrSyntaxObjects (by decide +kernel) false
    [0x30, 0x05, 0x30, 0x03, 0x01, 0x01, 0xFF]
  rw [ietf_ends_iff] at hends
  exact hends [0x01, 0x01, 0xFF] (by decide) (.here (by decide))

end Asn1Parser

end StrongSwan
