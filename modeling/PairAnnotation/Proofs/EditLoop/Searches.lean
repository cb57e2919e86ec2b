/-
# Searches from the edit loop

A line that asks for another pair leads to a candidate that qualifies, if there is one:
the tag of the filter stands on it, and it is not completed if an open pair is asked for
(`Session.movePair_of_qualifies`).  If there is none, nothing changes.  For this the loop has
a message ready, but it waits for a move without an answer, and a move that stays where it
is answers the pair it is on.  So the message is never written (`reportsSearch_iff`): the
loop shows the same view again, as if the search had led there.
-/

import PairAnnotation.Proofs.EditLoop.Actions
import PairAnnotation.Proofs.Session.Statistics

namespace PairAnnotation

namespace Cursor

variable {pairs : PairSet} {c : Cursor}

/-- A jump lands on the nearest candidate ahead that is open and carries the tag asked for. -/
theorem lands_jump (h : c.On pairs.candidates)
    (hcompleted : ∀ p ∈ pairs.completed, p ∈ pairs.toList)
    (resolve : Pair → ResolvedRelation) :
    Lands c pairs .next (fun p => pairs.isCompleted p = false ∧ (resolve p).Carries c.filter)
      (c.jumpToNextIncomplete pairs resolve) := by
  have hempty : pairs.isEmpty = false := by
    have hlt : c.pairIndex < pairs.length := h.pairIndex_lt
    rw [PairSet.isEmpty, beq_eq_false_iff_ne]
    omega
  cases hall : pairs.isFullyCompleted with
  | true =>
    have hdone := (PairSet.isFullyCompleted_iff hcompleted).1 hall
    rw [jumpToNextIncomplete, hall, Bool.or_true, if_pos rfl]
    refine ⟨?_, fun _ => h.stays⟩
    rintro ⟨p, hp, hopen, -⟩
    rw [hdone p hp] at hopen
    cases hopen
  | false =>
    rw [jumpToNextIncomplete_eq_arrive c resolve (by rw [hempty, hall]; rfl)]
    refine lands_arrive h .next fun p => ?_
    rw [Bool.and_eq_true, Bool.not_eq_true', passes_iff]

end Cursor

/-- The direction that a move to another pair takes; a jump to an incomplete pair goes on, never
back. -/
def PairMove.direction : PairMove → Direction
  | .next | .nextIncomplete => .next
  | .previous => .previous

namespace Session

variable {σ : Type} {s : Session σ} {move : PairMove}

/-- **A pair qualifies for a move**: it carries the tag of the filter, if one is set, and it is not
completed if the move is to an open pair. -/
def Qualifies (s : Session σ) (move : PairMove) (p : Pair) : Prop :=
  (s.resolvePair p).Carries s.cursor.filter ∧
    (move = .nextIncomplete → s.pairs.isCompleted p = false)

/-- A move looks for pairs that pass the filter, completed or not. -/
theorem qualifies_eq_carries (h : move ≠ .nextIncomplete) :
    s.Qualifies move = fun p => (s.resolvePair p).Carries s.cursor.filter := by
  funext p
  simp [Qualifies, h]

/-- A jump looks for pairs that pass the filter and are not completed. -/
theorem qualifies_nextIncomplete :
    s.Qualifies .nextIncomplete = fun p =>
      s.pairs.isCompleted p = false ∧ (s.resolvePair p).Carries s.cursor.filter := by
  funext p
  simp [Qualifies, and_comm]

/-- A move lands on the nearest candidate that qualifies for it. -/
theorem lands_movePair (h : s.Sound) (move : PairMove) :
    Cursor.Lands s.cursor s.pairs move.direction (s.Qualifies move)
      ((s.movePair move).1, (s.movePair move).2.cursor) := by
  cases move with
  | next =>
    rw [qualifies_eq_carries (by decide)]
    exact Cursor.lands_movePair h.on .next s.resolvePair
  | previous =>
    rw [qualifies_eq_carries (by decide)]
    exact Cursor.lands_movePair h.on .previous s.resolvePair
  | nextIncomplete =>
    rw [qualifies_nextIncomplete]
    exact Cursor.lands_jump h.on h.mem_of_completed s.resolvePair

/-- **A move leads to a candidate that qualifies**, if there is one. -/
theorem movePair_of_qualifies (h : s.Sound) (hsome : ∃ p ∈ s.pairs.toList, s.Qualifies move p) :
    ∃ p ∈ s.pairs.toList, s.Qualifies move p ∧ (s.movePair move).1 = some p ∧
      (s.movePair move).2.cursor.pair? = some p := by
  obtain ⟨steps, p, hnearest, -, houtcome⟩ := (lands_movePair h move).found hsome
  obtain ⟨hanswer, hcursor⟩ := Prod.mk.inj houtcome
  refine ⟨p, Candidates.mem_toList_iff.2 ⟨_, hnearest.candidate⟩, hnearest.hit, hanswer, ?_⟩
  rw [hcursor]
  exact Pair.of?_members p

/-- **A move stays where it is**, and answers the pair there, if no candidate qualifies. -/
theorem movePair_of_not_qualifies (h : s.Sound)
    (hnone : ∀ p ∈ s.pairs.toList, ¬ s.Qualifies move p) : ∃ p, s.movePair move = (some p, s) := by
  obtain ⟨p, -, -, houtcome⟩ := (lands_movePair h move).stays hnone
  obtain ⟨hanswer, hcursor⟩ := Prod.mk.inj houtcome
  refine ⟨p, Prod.ext hanswer ?_⟩
  change { s with cursor := (s.movePair move).2.cursor } = s
  rw [hcursor]

/-- A move to another pair always has an answer: from a candidate it stays or lands on one. -/
theorem isSome_movePair (h : s.Sound) (move : PairMove) : (s.movePair move).1.isSome := by
  by_cases hsome : ∃ p ∈ s.pairs.toList, s.Qualifies move p
  · obtain ⟨p, -, -, hanswer, -⟩ := movePair_of_qualifies h hsome
    rw [hanswer]
    rfl
  · have hnone : ∀ p ∈ s.pairs.toList, ¬ s.Qualifies move p := fun p hp hq => hsome ⟨p, hp, hq⟩
    obtain ⟨p, hmove⟩ := movePair_of_not_qualifies h hnone
    rw [hmove]
    rfl

end Session

namespace EditLoop

variable {σ : Type} [AnnotationStore σ] {s s₀ : Session σ} {move : PairMove}

/-- **A turn reports how a search ended**: that there is no matching pair, if no candidate
qualifies; otherwise the cursor is on one that does, and there is no message. -/
structure ReportsSearch (s : Session σ) (move : PairMove) (turn : Turn σ) : Prop where
  fruitless : (∀ p ∈ s.pairs.toList, ¬ s.Qualifies move p) →
    turn.output = "no matching pair\n" ++ screen turn.session
  fruitful : (∃ p ∈ s.pairs.toList, s.Qualifies move p) →
    turn.output = screen turn.session ∧
      ∃ p ∈ s.pairs.toList, s.Qualifies move p ∧ turn.session.cursor.pair? = some p

/-- A search is answered with the view it leads to, and with nothing else. -/
theorem obey_pair (h : s.Sound) (move : PairMove) :
    obey s (.pair move) = showing "" (s.movePair move).2 := by
  have hanswer : (s.movePair move).1.isNone = false := by
    rw [← Option.not_isSome, Session.isSome_movePair h move]
    rfl
  simp [obey, hanswer]

omit [AnnotationStore σ] in
/-- Without a message the view is all that is written. -/
theorem output_showing (s : Session σ) : (showing "" s).output = screen s := String.empty_append ..

/-- Behind a view the loop goes on with the lines that are left, and the view is shown. -/
theorem resume_showing (output : String) {v : EditorView} (hview : s.view? = some v)
    (lines : List (List UInt8)) :
    resume output (showing "" s) lines = follow (output ++ v.render) s lines := by
  have hending : (showing "" s).ending = none := by rw [showing, hview]; rfl
  rw [resume, hending, output_showing, screen, hview, Option.map_some, Option.getD_some]
  rfl

/-- Where there is no view, the loop ends and writes nothing more. -/
theorem resume_showing_of_none (output : String) (hview : s.view? = none)
    (lines : List (List UInt8)) :
    resume output (showing "" s) lines = ⟨output, s, .noView⟩ := by
  have hending : (showing "" s).ending = some .noView := by rw [showing, hview]; rfl
  rw [resume, hending, output_showing, screen, hview, Option.map_none, Option.getD_none,
    String.append_empty]
  rfl

/-- A text is not the same with the message in front of it. -/
theorem ne_message_append (text : String) : text ≠ "no matching pair\n" ++ text := by
  intro h
  have hlength := congrArg String.length h
  rw [String.length_append] at hlength
  have hmessage : "no matching pair\n".length = 17 := by decide
  omega

/-- A single command that searches reports what it has found exactly if there is a pair to be
found. -/
theorem reportsSearch_obey_iff (h : s.Sound) (move : PairMove) :
    ReportsSearch s move (obey s (.pair move)) ↔ ∃ p ∈ s.pairs.toList, s.Qualifies move p := by
  rw [obey_pair h]
  constructor
  · intro hreports
    by_contra hsome
    have hmessage := hreports.fruitless fun p hp hq => hsome ⟨p, hp, hq⟩
    exact ne_message_append _ ((output_showing _).symm.trans hmessage)
  · intro hsome
    refine ⟨fun hnone => ?_, fun _ => ⟨output_showing _, ?_⟩⟩
    · obtain ⟨p, hp, hq⟩ := hsome
      exact absurd hq (hnone p hp)
    · obtain ⟨p, hp, hq, -, hcursor⟩ := Session.movePair_of_qualifies h hsome
      exact ⟨p, hp, hq, hcursor⟩

/-- **The loop reports how a search ended exactly if the search found something.**  In every state
of a session, a line that asks for another pair is answered with the view that the move leads to and
with nothing else.  The loop goes on from there, or it ends if there is no view to show.  If no
candidate qualifies, nothing is written that says so, and the session is the one before. -/
theorem reportsSearch_iff {store : σ} {config : Config}
    (hstart : Session.start store config = .ok s₀) (actions : List Action) {line : String}
    (hline : EditCommand.parse line = .ok (.pair move)) :
    let s := s₀.run actions
    let turn := answer s line
    (ReportsSearch s move turn ↔ ∃ p ∈ s.pairs.toList, s.Qualifies move p) ∧
      turn.output = screen turn.session ∧
      ((∀ p ∈ s.pairs.toList, ¬ s.Qualifies move p) → turn.session = s) ∧
      ∀ output bytes rest, Text.decode? bytes = some line →
        (∀ v, turn.session.view? = some v →
          follow output s (bytes :: rest) = follow (output ++ v.render) turn.session rest) ∧
        (turn.session.view? = none →
          follow output s (bytes :: rest) = ⟨output, turn.session, .noView⟩) := by
  have hsound := Session.sound_run (Session.sound_start hstart) actions
  intro s turn
  have hturn : turn = obey s (.pair move) := answer_of_parse hline
  rw [hturn]
  refine ⟨reportsSearch_obey_iff hsound move, ?_, ?_, ?_⟩
  · rw [obey_pair hsound]
    exact output_showing _
  · intro hnone
    obtain ⟨p, hmove⟩ := Session.movePair_of_not_qualifies hsound hnone
    rw [obey_pair hsound]
    exact congrArg Prod.snd hmove
  · intro output bytes rest hdecode
    rw [follow_of_parse output s rest hdecode hline, obey_pair hsound]
    exact ⟨fun v hview => resume_showing output hview rest,
      fun hview => resume_showing_of_none output hview rest⟩

/-- The tag stands on two of three candidates, and the way back from the first one leads to the
second of these. -/
theorem reportsSearch_causedTwice :
    ∃ s₀, Session.start (⟨Document.causedTwice, none, {}⟩ : FileStore) {} = .ok s₀ ∧
      EditCommand.parse " p " = .ok (.pair .previous) ∧
      ReportsSearch (s₀.run [.setFilter (some "cause")]) .previous
        (answer (s₀.run [.setFilter (some "cause")]) " p ") := by
  obtain ⟨s₀, hstart⟩ :
      ∃ s₀, Session.start (⟨Document.causedTwice, none, {}⟩ : FileStore) {} = .ok s₀ :=
    Session.exists_start_of_load Document.load_causedTwice (by decide)
  obtain ⟨-, -, hsegments, hindex, hpairs, -⟩ := Session.start_eq_ok hstart
  replace hsegments : s₀.segments = Document.threeSegments :=
    hsegments.trans Document.load_causedTwice
  have htag : s₀.tag "cause" = .ok ⟨"cause", none⟩ := by
    rw [Session.tag, Session.tags, hindex]
    rfl
  have hparse : EditCommand.parse " p " = .ok (.pair .previous) := rfl
  refine ⟨s₀, hstart, hparse, (reportsSearch_iff hstart _ hparse).1.2 ?_⟩
  rw [Session.run_setFilter htag]
  refine ⟨⟨1, 2, by decide⟩, ?_, ?_, by simp⟩
  · rw [show s₀.pairs = _ from congrArg Prod.fst hpairs, hsegments]
    decide
  · simp only [Session.resolvePair, hsegments, hindex]
    decide

/-- Three sentences without a relation have no pair that carries a tag.  The search for one is
answered with the same view again. -/
theorem fruitless_search_unreported :
    ∃ s₀, Session.start (⟨Document.threeTagged [] 3, none, {}⟩ : FileStore) {} = .ok s₀ ∧
      EditCommand.parse "n" = .ok (.pair .next) ∧
      (∀ p ∈ (s₀.run [.setFilter (some "cause")]).pairs.toList,
        ¬ (s₀.run [.setFilter (some "cause")]).Qualifies .next p) ∧
      ¬ ReportsSearch (s₀.run [.setFilter (some "cause")]) .next
        (answer (s₀.run [.setFilter (some "cause")]) "n") := by
  obtain ⟨s₀, hstart⟩ := Session.start_threeTagged [] 3 .adjacent
  obtain ⟨-, -, hsegments, hindex, hpairs, -⟩ := Session.start_eq_ok hstart
  replace hsegments : s₀.segments = Document.threeSegments :=
    hsegments.trans (Document.load_threeTagged [] 3)
  have htag : s₀.tag "cause" = .ok ⟨"cause", none⟩ := by
    rw [Session.tag, Session.tags, hindex]
    rfl
  have hparse : EditCommand.parse "n" = .ok (.pair .next) := rfl
  have hnone : ∀ p ∈ (s₀.run [.setFilter (some "cause")]).pairs.toList,
      ¬ (s₀.run [.setFilter (some "cause")]).Qualifies .next p := by
    rw [Session.run_setFilter htag]
    intro p hp hq
    replace hq := hq.1
    revert p
    simp only [Session.resolvePair, show s₀.pairs = _ from congrArg Prod.fst hpairs, hsegments,
      hindex]
    decide
  refine ⟨s₀, hstart, hparse, hnone, fun hreports => ?_⟩
  rw [answer_of_parse hparse, reportsSearch_obey_iff
    (Session.sound_run (Session.sound_start hstart) _)] at hreports
  obtain ⟨p, hp, hq⟩ := hreports
  exact hnone p hp hq

end EditLoop
end PairAnnotation
