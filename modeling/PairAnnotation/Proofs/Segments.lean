/-
# Segments and their spans

A segment is known by its index and by its span.  The index of a span is that of the
first segment with this span, so it leads back to the span
(`SegmentList.spanAt?_of_indexOf?`); where no two segments have the same span, the
span of a segment leads back to its index (`SegmentList.Distinct.indexOf?_eq`).
-/

import Mathlib.Data.List.Nodup
import PairAnnotation.Segment

namespace PairAnnotation
namespace SegmentList

variable {s : SegmentList} {i j : Nat} {span : Span}

/-! ### From a span to its index -/

/-- The index of a span is that of a segment in the list. -/
theorem lt_length_of_indexOf? (h : s.indexOf? span = some i) : i < s.length := by
  obtain ⟨hi, -⟩ := List.findIdx?_eq_some_iff_getElem.1 h
  exact hi

/-- Every index below the number of segments has a span. -/
theorem exists_spanAt? (h : i < s.length) : ∃ span, s.spanAt? i = some span :=
  ⟨s.segments[i].span, by rw [spanAt?, get?, List.getElem?_eq_getElem h]; rfl⟩

/-- **The index of a span leads back to it**: a segment that is found by its span has that span. -/
theorem spanAt?_of_indexOf? (h : s.indexOf? span = some i) : s.spanAt? i = some span := by
  obtain ⟨hi, hspan, -⟩ := List.findIdx?_eq_some_iff_getElem.1 h
  rw [spanAt?, get?, List.getElem?_eq_getElem hi, Option.map_some, eq_of_beq hspan]

/-- Two spans with the same index are the same span. -/
theorem indexOf?_inj {a b : Span} (ha : s.indexOf? a = some i) (hb : s.indexOf? b = some i) :
    a = b :=
  Option.some.inj ((spanAt?_of_indexOf? ha).symm.trans (spanAt?_of_indexOf? hb))

/-! ### Segments with spans of their own -/

/-- No two segments have the same span, so each of them can be told by its span. -/
def Distinct (s : SegmentList) : Prop := (s.segments.map (·.span)).Nodup

instance (s : SegmentList) : Decidable s.Distinct :=
  inferInstanceAs (Decidable (s.segments.map (·.span)).Nodup)

/-- **A segment is found by its span** if no other segment has that span too; otherwise an earlier
one may be found. -/
theorem Distinct.indexOf?_eq (h : s.Distinct) (hi : s.spanAt? i = some span) :
    s.indexOf? span = some i := by
  obtain ⟨segment, hsegment, rfl⟩ := Option.map_eq_some_iff.1 hi
  obtain ⟨hlt, rfl⟩ := List.getElem?_eq_some_iff.1 hsegment
  refine List.findIdx?_eq_some_iff_getElem.2 ⟨hlt, beq_self_eq_true _, fun j hj heq => ?_⟩
  have hsegment : s.segments[j] = s.segments[i] :=
    List.inj_on_of_nodup_map h (List.getElem_mem _) (List.getElem_mem _) (eq_of_beq heq)
  have := (List.Nodup.getElem_inj_iff (List.Nodup.of_map _ h)).1 hsegment
  omega

/-- Where no two segments have the same span, a span has one index at most. -/
theorem Distinct.index_eq (h : s.Distinct) (hi : s.spanAt? i = some span)
    (hj : s.spanAt? j = some span) : i = j :=
  Option.some.inj ((h.indexOf?_eq hi).symm.trans (h.indexOf?_eq hj))

/-! ### Segments of a text -/

/-- Segments that come from sentence boundaries depend on the text and its sentences only. -/
theorem load_congr {d d' : Document} {layers : LayerConfig} (hformat : d'.format = d.format)
    (htext : d'.text = d.text) (hsentences : d'.sentences = d.sentences)
    (hderived : layers.isPreAnnotatedFormat d.format = false) : load d' layers = load d layers := by
  have hbare : bare d' = bare d := by
    funext span
    rw [bare, bare, htext]
  rw [load, load, hformat, hderived, if_neg (by decide), if_neg (by decide), derived, derived,
    Document.orderedSentences, Document.orderedSentences, hsentences, htext, hbare]

end SegmentList
end PairAnnotation
