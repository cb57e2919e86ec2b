/-
# The actions that lines spell

A line of input stands for at most one action, whatever the session is it is typed in: a
move, a label or a filter (`EditCommand.action?`).  What the loop does to its session is to
perform these actions, line by line, up to the line that ends it or to the first one behind
which there is no view to show (`performs_follow`).  So every session that a loop leads to is
one that a run of actions leads to.
-/

import PairAnnotation.EditLoop
import PairAnnotation.Proofs.Text.Words

namespace PairAnnotation

/-- The action that a command stands for, unless it only shows something or ends the loop. -/
def EditCommand.action? : EditCommand → Option Action
  | .pair move => some (.movePair move)
  | .segment side direction => some (.moveSegment side direction)
  | .relation direction tagName => some (.select direction tagName)
  | .filter tagName => some (.setFilter tagName)
  | .stats | .help | .quit => none

/-- A filter that is set is the tag of its name. -/
theorem Session.run_setFilter {σ : Type} [AnnotationStore σ] {s : Session σ} {name : String}
    {tag : Tag} (htag : s.tag name = .ok tag) :
    s.run [.setFilter (some name)] = { s with cursor := { s.cursor with filter := some tag } } := by
  rw [run, List.foldl_cons, List.foldl_nil, perform, setFilter, htag]

namespace EditLoop

variable {σ : Type} [AnnotationStore σ] {s : Session σ} {line : String} {command : EditCommand}

/-! ### One line -/

/-- **A command does to the session what its action does**, and a command without an action leaves
it alone. -/
theorem session_obey (s : Session σ) (command : EditCommand) :
    (obey s command).session = s.run command.action?.toList := by
  cases command <;> rfl

/-- Only the command to quit ends the loop in the regular way; any other one ends it where there is
no view to show, or not at all. -/
theorem ending_obey (s : Session σ) {command : EditCommand} (hquit : command ≠ .quit) :
    (obey s command).ending = none ∨ (obey s command).ending = some .noView := by
  cases command with
  | quit => exact absurd rfl hquit
  | help | stats => exact .inl rfl
  | pair | segment | relation | filter =>
    simp only [obey, showing]
    split
    · exact .inr rfl
    · exact .inl rfl

/-- A line that is all white space is no command. -/
theorem parse_of_isAllBlank (h : Text.isAllBlank line = true) :
    EditCommand.parse line = .error .empty := by
  rw [EditCommand.parse, Text.words_eq_nil_iff.2 h]

/-- **A line that is a command is obeyed**, whatever its spacing is. -/
theorem answer_of_parse (h : EditCommand.parse line = .ok command) :
    answer s line = obey s command := by
  have hblank : ¬ Text.isAllBlank line = true := by
    intro hblank
    rw [parse_of_isAllBlank hblank] at h
    cases h
  rw [answer, if_neg hblank, h]

/-- A line that is no command leaves the session alone, and the loop goes on. -/
theorem answer_of_error {e : CommandError} (h : EditCommand.parse line = .error e) :
    (answer s line).session = s ∧ (answer s line).ending = none := by
  rw [answer]
  split
  · exact ⟨rfl, rfl⟩
  · rw [h]
    exact ⟨rfl, rfl⟩

/-- Lines with the same words are the same command, since a line is split into words first. -/
theorem parse_congr {line' : String} (h : Text.words line' = Text.words line) :
    EditCommand.parse line' = EditCommand.parse line := by
  rw [EditCommand.parse, EditCommand.parse, h]

/-! ### All lines -/

variable {bytes : List UInt8}

/-- **At a line that is a command the loop obeys it**, and goes on behind the turn. -/
theorem follow_of_parse (output : String) (s : Session σ) (rest : List (List UInt8))
    (hdecode : Text.decode? bytes = some line) (hparse : EditCommand.parse line = .ok command) :
    follow output s (bytes :: rest) = resume output (obey s command) rest := by
  rw [follow, hdecode]
  dsimp only
  rw [answer_of_parse hparse]
  rfl

/-- The actions that the lines of an input stand for, up to the line that ends the loop. -/
def actions : List (List UInt8) → List Action
  | [] => []
  | bytes :: rest =>
    match (Text.decode? bytes).map EditCommand.parse with
    | none => []
    | some (.error _) => actions rest
    | some (.ok command) =>
      if command = .quit then [] else command.action?.toList ++ actions rest

/-- **The session that a loop leaves comes of the actions that the lines stand for**: the first ones
of them up to where there was no view to show, or all of them. -/
def Performs (s : Session σ) (lines : List (List UInt8)) (left : Transcript σ) : Prop :=
  ∃ performed, performed <+: actions lines ∧ left.session = s.run performed ∧
    (left.ending ≠ .noView → performed = actions lines)

/-- Behind a command that is no quitting, the loop performs the action of the command and then, if
there is a view to show, those of the lines that are left. -/
theorem performs_resume (output : String) (s : Session σ) {rest : List (List UInt8)}
    (hquit : command ≠ .quit)
    (hrest : ∀ output (s : Session σ), Performs s rest (follow output s rest))
    (hactions : actions (bytes :: rest) = command.action?.toList ++ actions rest) :
    Performs s (bytes :: rest) (resume output (obey s command) rest) := by
  rcases ending_obey s hquit with hending | hending
  · obtain ⟨performed, hprefix, hsession, hall⟩ :=
      hrest (output ++ (obey s command).output) (obey s command).session
    rw [resume, hending]
    refine ⟨command.action?.toList ++ performed, ?_, ?_, fun h => ?_⟩
    · rw [hactions]
      exact (List.prefix_append_right_inj _).2 hprefix
    · rw [hsession, session_obey, Session.run, Session.run, Session.run, List.foldl_append]
    · rw [hactions, hall h]
  · rw [resume, hending]
    refine ⟨command.action?.toList, hactions ▸ List.prefix_append _ _, session_obey s command, ?_⟩
    exact fun h => absurd rfl h

/-- **What a loop does to its session**: it performs the actions that the lines stand for. -/
theorem performs_follow (output : String) (s : Session σ) (lines : List (List UInt8)) :
    Performs s lines (follow output s lines) := by
  induction lines generalizing output s with
  | nil => exact ⟨[], List.nil_prefix, rfl, fun _ => rfl⟩
  | cons bytes rest ih =>
    cases hdecode : Text.decode? bytes with
    | none =>
      rw [follow, hdecode]
      exact ⟨[], List.nil_prefix, rfl, fun _ => by rw [actions, hdecode]; rfl⟩
    | some line =>
      cases hparse : EditCommand.parse line with
      | error e =>
        obtain ⟨hsession, hending⟩ := answer_of_error (s := s) hparse
        have hactions : actions (bytes :: rest) = actions rest := by
          rw [actions, hdecode, Option.map_some, hparse]
        rw [follow, hdecode]
        dsimp only
        rw [hending, hsession, Performs, hactions]
        exact ih _ s
      | ok command =>
        rw [follow_of_parse output s rest hdecode hparse]
        by_cases hquit : command = .quit
        · rw [hquit]
          refine ⟨[], List.nil_prefix, rfl, fun _ => ?_⟩
          rw [actions, hdecode, Option.map_some, hparse]
          exact (if_pos hquit).symm
        · refine performs_resume output s hquit ih ?_
          rw [actions, hdecode, Option.map_some, hparse]
          exact if_neg hquit

end EditLoop
end PairAnnotation
