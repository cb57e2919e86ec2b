/-
# What the statistics count

The statistics count, tag by tag, the candidates on which the tag stands.  Moving onward
with the tag as filter comes by just these candidates: from wherever the cursor is, as
many moves as the statistics say land on each of them once (`Cursor.exists_landings`), and
each time the view shows the tag (`Session.shows_of_contains`).  Where the statistics say
zero, the cursor stays where it is (`Cursor.iterate_stepPair_of_none`).
-/

import PairAnnotation.Proofs.Cursor.BackAndForth
import PairAnnotation.Proofs.Session.Completion
import PairAnnotation.Session.View

namespace PairAnnotation

/-! ### Moves of the cursor -/

namespace Cursor

variable {pairs : PairSet} {c : Cursor} {resolve : Pair → ResolvedRelation}

/-- A move answers the pair it leads to, in a search that finds nothing the pair it started from. -/
theorem fst_movePair (c : Cursor) (d : Direction) (pairs : PairSet)
    (resolve : Pair → ResolvedRelation) :
    (c.movePair d pairs resolve).1 = (stepPair pairs resolve d c).pair? := by
  unfold stepPair movePair
  split
  · exact (Pair.of?_members _).symm
  · rfl

/-- A move lands on the nearest candidate that carries the tag asked for. -/
theorem lands_movePair (h : c.On pairs.candidates) (d : Direction)
    (resolve : Pair → ResolvedRelation) :
    Lands c pairs d (fun p => (resolve p).Carries c.filter) (c.movePair d pairs resolve) := by
  rw [movePair_eq_arrive]
  exact lands_arrive h d fun p => passes_iff

/-- **Moves land on every candidate that passes the filter once**, wherever they start. -/
theorem exists_landings (h : c.On pairs.candidates) (d : Direction)
    (resolve : Pair → ResolvedRelation) :
    ∃ landed : List Pair, landed.Perm (passing pairs c.filter resolve) ∧
      ∀ k < landed.length, ((stepPair pairs resolve d)^[k + 1] c).pair? = landed[k]? := by
  rcases List.eq_nil_or_concat (passing pairs c.filter resolve) with hnone | ⟨_, p, hsome⟩
  · exact ⟨[], by rw [hnone], by simp⟩
  · have hp : p ∈ passing pairs c.filter resolve := by simp [hsome]
    obtain ⟨steps, q, hnearest, -, hmove⟩ :=
      (lands_movePair h d resolve).found ⟨p, mem_passing.1 hp⟩
    have hq : q ∈ passing pairs c.filter resolve :=
      mem_passing.2 ⟨Candidates.mem_toList_iff.2 ⟨_, hnearest.candidate⟩, hnearest.hit⟩
    have hfirst : (stepPair pairs resolve d c).pair? = some q := by
      rw [← fst_movePair, hmove]
    exact (goesRound_stepPair pairs c.filter resolve).exists_visits d ⟨h, rfl⟩ hq hfirst

/-- **Where no candidate passes the filter**, moves leave the cursor as it is. -/
theorem iterate_stepPair_of_none (h : c.On pairs.candidates) (d : Direction)
    (hnone : ∀ p ∈ pairs.toList, ¬(resolve p).Carries c.filter) (k : Nat) :
    (stepPair pairs resolve d)^[k] c = c := by
  obtain ⟨p, -, -, hmove⟩ := (lands_movePair h d resolve).stays hnone
  have hstay : stepPair pairs resolve d c = c := by
    rw [stepPair, hmove]
  exact Function.iterate_fixed hstay k

end Cursor

namespace Session

variable {σ : Type}

/-! ### The statistics -/

/-- The statistics have one number for each tag of the tag set. -/
theorem mem_perTag_iff {s : Session σ} {tag : Tag} (htag : tag ∈ s.tags.tags) {n : Nat} :
    ⟨tag, n⟩ ∈ s.statistics.perTag ↔
      n = (Cursor.passing s.pairs (some tag) s.resolvePair).length := by
  have hcount : (Cursor.passing s.pairs (some tag) s.resolvePair).length =
      (s.pairs.toList.map s.resolvePair).countP (·.contains tag) := by
    rw [Cursor.passing, ← List.countP_eq_length_filter, List.countP_map]
    rfl
  rw [hcount]
  constructor
  · intro h
    obtain ⟨t, -, heq⟩ := List.mem_map.1 h
    cases heq
    rfl
  · rintro rfl
    exact List.mem_map.2 ⟨tag, htag, rfl⟩

/-! ### The view -/

/-- **A session shows a tag** on one of the two arrows of the pair under the cursor, and so does its
view.  The first half says it of the pair alone, which can be shown also where the progress bar is
too wide for a view. -/
structure Shows (s : Session σ) (tag : Tag) : Prop where
  pair : s.pairView.leftRelation = some tag ∨ s.pairView.rightRelation = some tag
  view : ∀ v, s.view? = some v → v.leftRelation = some tag ∨ v.rightRelation = some tag

/-- A view has what is shown of the pair, and beyond it only what is shown of the progress. -/
theorem toPairView_of_view? {s : Session σ} {v : EditorView} (h : s.view? = some v) :
    v.toPairView = s.pairView := by
  obtain ⟨style, -, rfl⟩ := Option.map_eq_some_iff.1 h
  rfl

/-- **A tag that stands on the pair under the cursor is shown.** -/
theorem shows_of_contains {s : Session σ} {p : Pair} {tag : Tag} (hp : s.cursor.pair? = some p)
    (h : (s.resolvePair p).contains tag = true) : s.Shows tag := by
  suffices hpair : s.pairView.leftRelation = some tag ∨ s.pairView.rightRelation = some tag from
    ⟨hpair, fun v hv => by rwa [toPairView_of_view? hv]⟩
  cases hlow : s.segments.spanAt? p.low with
  | none => simp [resolvePair, hlow, ResolvedRelation.contains] at h
  | some low =>
    cases hhigh : s.segments.spanAt? p.high with
    | none => simp [resolvePair, hlow, hhigh, ResolvedRelation.contains] at h
    | some high =>
      simp only [resolvePair, hlow, hhigh] at h
      have hview : ∀ a b, s.segments.spanAt? s.cursor.left = some a →
          s.segments.spanAt? s.cursor.right = some b →
          s.pairView.leftRelation = s.index.tag? a b ∧
            s.pairView.rightRelation = s.index.tag? b a := by
        intro a b ha hb
        have hresolve : s.resolve s.cursor.left s.cursor.right = .ok (s.index.resolve a b) := by
          simp only [resolve, LabelWriter.segmentSpan, ha, hb]
          rfl
        constructor <;> simp [pairView, hresolve, Except.toOption, RelationIndex.resolve]
      rcases Pair.of?_eq_some_iff.1 hp with ⟨hl, hr⟩ | ⟨hl, hr⟩
      · obtain ⟨hleft, hright⟩ := hview low high (hl ▸ hlow) (hr ▸ hhigh)
        rw [hleft, hright]
        exact ResolvedRelation.contains_iff.1 h
      · obtain ⟨hleft, hright⟩ := hview high low (hl ▸ hhigh) (hr ▸ hlow)
        rw [hleft, hright]
        exact (ResolvedRelation.contains_iff.1 h).symm

/-! ### Moving onward -/

/-- The session after a move to the next pair, or the same session if no pair qualifies. -/
def onward (s : Session σ) : Session σ := (s.movePair .next).2

/-- Moves onward move the cursor and nothing else, so a filter and the relations stay as they
are. -/
theorem iterate_onward (s : Session σ) (k : Nat) :
    onward^[k] s =
      { s with cursor := (Cursor.stepPair s.pairs s.resolvePair .next)^[k] s.cursor } := by
  induction k with
  | zero => rfl
  | succ k ih =>
    rw [Function.iterate_succ_apply', Function.iterate_succ_apply', ih]
    rfl

/-- **Moves onward land on the pairs of a list**, one after the other, and there the session shows
a tag. -/
def LandsOn (s : Session σ) (tag : Tag) (landed : List Pair) : Prop :=
  ∀ k p, landed[k]? = some p →
    ((onward^[k] s).movePair .next).1 = some p ∧ (onward^[k + 1] s).cursor.pair? = some p ∧
      (onward^[k + 1] s).Shows tag

/-- **From a candidate, moves onward land on all pairs with the tag of the filter**, each once, and
the session shows the tag wherever they land. -/
theorem exists_landsOn {s : Session σ} (h : s.cursor.On s.pairs.candidates) {tag : Tag}
    (hfilter : s.cursor.filter = some tag) :
    ∃ landed, landed.Perm (Cursor.passing s.pairs (some tag) s.resolvePair) ∧
      s.LandsOn tag landed := by
  obtain ⟨landed, hperm, hlanded⟩ := Cursor.exists_landings h .next s.resolvePair
  rw [hfilter] at hperm
  refine ⟨landed, hperm, fun k p hp => ?_⟩
  obtain ⟨hk, -⟩ := List.getElem?_eq_some_iff.1 hp
  have hcursor : (onward^[k + 1] s).cursor.pair? = some p := by
    rw [iterate_onward, hlanded k hk, hp]
  have hcontains : ((onward^[k + 1] s).resolvePair p).contains tag = true := by
    rw [iterate_onward]
    exact (List.mem_filter.1 (hperm.subset (List.mem_of_getElem? hp))).2
  refine ⟨?_, hcursor, shows_of_contains hcursor hcontains⟩
  rw [Function.iterate_succ_apply', iterate_onward] at hcursor
  rw [iterate_onward]
  exact (Cursor.fst_movePair _ _ _ _).trans hcursor

variable [AnnotationStore σ]

/-- **The statistics count the stops of filtered moves.**  After every run, and for every tag that
its name finds, the statistics have one number of pairs.  With the tag as filter, as many moves
onward as this number land on different candidates, which are all on which the tag stands, and each
time the session and its view show the tag on one of the two arrows.  If the number is zero, no
number of moves changes anything. -/
theorem statistics_count_stops {store : σ} {config : Config} {s₀ : Session σ}
    (hstart : start store config = .ok s₀) (actions : List Action) {tag : Tag}
    (htag : (s₀.run actions).tags.find? tag.name = some tag) :
    ∃ m filtered landed,
      (∀ n, ⟨tag, n⟩ ∈ (s₀.run actions).statistics.perTag ↔ n = m) ∧
      (s₀.run actions).setFilter (some tag.name) = (.ok (), filtered) ∧
      landed.length = m ∧ landed.Nodup ∧
      (∀ p, p ∈ landed ↔ p ∈ (s₀.run actions).pairs.toList ∧
        ((s₀.run actions).resolvePair p).contains tag = true) ∧
      filtered.LandsOn tag landed ∧
      (m = 0 → ∀ k, onward^[k] filtered = filtered) := by
  have hon := (sound_run (sound_start hstart) actions).on
  generalize s₀.run actions = s at htag hon ⊢
  let filtered : Session σ := { s with cursor := { s.cursor with filter := some tag } }
  have hset : s.setFilter (some tag.name) = (.ok (), filtered) := by
    have hok : s.tag tag.name = .ok tag := by rw [Session.tag, htag]
    rw [setFilter, hok]
  have hfiltered : filtered.cursor.On filtered.pairs.candidates := hon
  have hfilter : filtered.cursor.filter = some tag := rfl
  obtain ⟨landed, hperm, hlanded⟩ := exists_landsOn hfiltered hfilter
  refine ⟨_, filtered, landed, fun n => mem_perTag_iff (List.mem_of_find?_eq_some htag), hset,
    hperm.length_eq, hperm.nodup_iff.2 (Cursor.nodup_passing _ _ _), fun p => ?_, hlanded, ?_⟩
  · rw [hperm.mem_iff]
    exact List.mem_filter
  · intro hzero k
    have hnone : ∀ p ∈ filtered.pairs.toList,
        ¬(filtered.resolvePair p).Carries filtered.cursor.filter := by
      intro p hp hcarries
      have hmem : p ∈ Cursor.passing s.pairs (some tag) s.resolvePair :=
        Cursor.mem_passing.2 ⟨hp, hcarries⟩
      rw [List.length_eq_zero_iff.1 hzero] at hmem
      cases hmem
    rw [iterate_onward, Cursor.iterate_stepPair_of_none hfiltered .next hnone k]

end Session

/-- Three sentences, the second of which depends on either of the others by one tag. -/
def Document.causedTwice : Document :=
  { threeTagged
      [.relinked ⟨4⟩ "webanno.custom.SentenceRelation" "label" ⟨2⟩ ⟨1⟩ (some "cause"),
        .relinked ⟨5⟩ "webanno.custom.SentenceRelation" "label" ⟨2⟩ ⟨3⟩ (some "cause")] 6 with
    spans := threeSentences.spans ++
      [⟨⟨3⟩, "webanno.custom.Sentence", ⟨6, 8⟩, FeatureMap.empty⟩] }

/-- The segments of the document with two causes are its three sentences. -/
theorem Document.load_causedTwice : SegmentList.load causedTwice {} = threeSegments := by
  rw [← load_threeSentences]
  exact SegmentList.load_congr rfl rfl rfl isPreAnnotatedFormat_threeSentences

namespace Session

/-- The tag stands on two of three candidates, and two moves onward land on these two. -/
theorem statistics_count_stops_causedTwice :
    ∃ s₀ filtered landed,
      start (⟨Document.causedTwice, none, {}⟩ : FileStore) {} = .ok s₀ ∧
      s₀.tags.find? "cause" = some ⟨"cause", none⟩ ∧
      ⟨⟨"cause", none⟩, 2⟩ ∈ s₀.statistics.perTag ∧
      s₀.setFilter (some "cause") = (.ok (), filtered) ∧
      landed.Perm [⟨0, 1, by decide⟩, ⟨1, 2, by decide⟩] ∧
      filtered.LandsOn ⟨"cause", none⟩ landed := by
  obtain ⟨s₀, hstart⟩ : ∃ s₀, start (⟨Document.causedTwice, none, {}⟩ : FileStore) {} = .ok s₀ :=
    exists_start_of_load Document.load_causedTwice (by decide)
  obtain ⟨-, -, hsegments, hindex, hpairs, -⟩ := start_eq_ok hstart
  replace hsegments : s₀.segments = Document.threeSegments :=
    hsegments.trans Document.load_causedTwice
  have htag : s₀.tags.find? (Tag.mk "cause" none).name = some ⟨"cause", none⟩ := by
    rw [tags, hindex]
    rfl
  obtain ⟨m, filtered, landed, hstatistics, hset, hlength, hnodup, hmem, hlands, -⟩ :=
    statistics_count_stops hstart [] htag
  have hstops : s₀.pairs.toList.filter (fun p => (s₀.resolvePair p).contains ⟨"cause", none⟩) =
      [⟨0, 1, by decide⟩, ⟨1, 2, by decide⟩] := by
    rw [show s₀.pairs = _ from congrArg Prod.fst hpairs]
    simp only [resolvePair, hsegments, hindex]
    decide
  have hperm : landed.Perm [⟨0, 1, by decide⟩, ⟨1, 2, by decide⟩] := by
    rw [List.perm_ext_iff_of_nodup hnodup (by decide), ← hstops]
    intro p
    rw [hmem, List.mem_filter]
    rfl
  obtain rfl : m = 2 := hlength.symm.trans hperm.length_eq
  exact ⟨s₀, filtered, landed, hstart, htag, (hstatistics 2).2 rfl, hset, hperm, hlands⟩

end Session
end PairAnnotation
