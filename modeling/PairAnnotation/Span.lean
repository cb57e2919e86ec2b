/-
# Spans of a text

A span is a pair of character offsets.  Offsets count Unicode scalar values, the
end is exclusive, and nothing relates a span to a text until the two are brought
together by `Span.coveredText`.  Spans are ordered by start and then by stop;
annotations of a layer are listed by start, the longer one first
(`Span.outerFirst`).
-/

namespace PairAnnotation

/-- A stretch of text between two character offsets, the second one exclusive. -/
structure Span where
  start : Nat
  stop : Nat
  deriving DecidableEq, Repr, Inhabited

namespace Span

/-- Whether `t` lies inside `s`, its ends included. -/
def covers (s t : Span) : Bool := s.start ≤ t.start && t.stop ≤ s.stop

/-- By start, then by stop: the order of sentences. -/
def le (s t : Span) : Bool := s.start < t.start || (s.start == t.start && s.stop ≤ t.stop)

/-- By start, then the longer span first: the order of annotations. -/
def outerFirst (s t : Span) : Bool := s.start < t.start || (s.start == t.start && t.stop ≤ s.stop)

/-- Whether the offsets are in order and inside a text of `length` characters. -/
def fits (s : Span) (length : Nat) : Bool := s.start ≤ s.stop && s.stop ≤ length

/-- The characters of `text` between the two offsets.  Offsets beyond the text, or in the
wrong order, cover nothing there. -/
def coveredText (s : Span) (text : String) : String :=
  String.ofList ((text.toList.drop s.start).take (s.stop - s.start))

/-- A span covers another one exactly if it starts no later and stops no earlier. -/
theorem covers_iff {s t : Span} : s.covers t = true ↔ s.start ≤ t.start ∧ t.stop ≤ s.stop := by
  simp [covers]

theorem covers_refl (s : Span) : s.covers s = true := by simp [covers]

/-- A span is not behind another one exactly if it starts earlier, or starts there as well and stops
no later. -/
theorem le_iff {s t : Span} :
    s.le t = true ↔ s.start < t.start ∨ (s.start = t.start ∧ s.stop ≤ t.stop) := by
  simp [le]

/-- An outer span comes first exactly if it starts earlier, or starts there as well and stops no
earlier. -/
theorem outerFirst_iff {s t : Span} :
    s.outerFirst t = true ↔ s.start < t.start ∨ (s.start = t.start ∧ t.stop ≤ s.stop) := by
  simp [outerFirst]

/-- The order by start and then by stop is transitive. -/
theorem le_trans {s t u : Span} (h : s.le t = true) (h' : t.le u = true) : s.le u = true := by
  rw [le_iff] at *
  omega

/-- Of two spans one is not behind the other. -/
theorem le_total (s t : Span) : (s.le t || t.le s) = true := by
  rw [Bool.or_eq_true, le_iff, le_iff]
  omega

/-- The order in which outer spans come first is transitive. -/
theorem outerFirst_trans {s t u : Span} (h : s.outerFirst t = true) (h' : t.outerFirst u = true) :
    s.outerFirst u = true := by
  rw [outerFirst_iff] at *
  omega

/-- Of two spans one comes first when outer ones do. -/
theorem outerFirst_total (s t : Span) : (s.outerFirst t || t.outerFirst s) = true := by
  rw [Bool.or_eq_true, outerFirst_iff, outerFirst_iff]
  omega

/-- A span fits into a text exactly if it does not stop before it starts and the text is long
enough. -/
theorem fits_iff {s : Span} {n : Nat} : s.fits n = true ↔ s.start ≤ s.stop ∧ s.stop ≤ n := by
  simp [fits]

end Span

end PairAnnotation
