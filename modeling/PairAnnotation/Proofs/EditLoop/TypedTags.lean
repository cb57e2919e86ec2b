/-
# Tags as they are typed

There are three kinds of line that name a tag: the two that label the current pair and the
one that sets the filter.  The name on such a line is read word by word, and what is looked
up in the tag set are the words with single blanks between them.  So a tag is chosen by its
name exactly if the name is evenly spaced (`TagLine.chooses_iff`).  Any other name chooses
another tag, if there is one of the name that is left, or else it is refused.
-/

import PairAnnotation.Proofs.EditLoop.Actions
import PairAnnotation.Proofs.Session.Completion
import PairAnnotation.Proofs.Text.Lines

namespace PairAnnotation

namespace Text

/-- A text without a line feed is read back with the same words as it was typed. -/
theorem exists_byteLines_typed {text : String} (h : '\n' ∉ text.toList) (rest : List UInt8) :
    ∃ line, byteLines (typed text ++ rest) = encode line :: byteLines rest ∧
      words line = words text := by
  obtain ⟨line, hlines, hline⟩ := byteLines_typed h rest
  refine ⟨line, hlines, ?_⟩
  rcases hline with hline | hline
  · rw [words, words, hline]
  · rw [words, words, hline, wordsFrom_append_blank (by decide)]

end Text

namespace EditLoop

variable {σ : Type} [AnnotationStore σ]

/-- The loop answers a line that is typed with a turn, and goes on with what is typed next unless
the turn ends it. -/
def AnswersWith (s : Session σ) (line : String) (turn : Turn σ) : Prop :=
  ∀ output rest, follow output s (Text.byteLines (Text.typed line ++ rest)) =
    resume output turn (Text.byteLines rest)

/-- **A command that is typed is obeyed**, and what it leaves is what the loop goes on with. -/
theorem answersWith_of_parse (s : Session σ) {line : String} {command : EditCommand}
    (hbreak : '\n' ∉ line.toList) (hparse : EditCommand.parse line = .ok command) :
    AnswersWith s line (obey s command) := by
  intro output rest
  obtain ⟨line', hlines, hwords⟩ := Text.exists_byteLines_typed hbreak rest
  rw [hlines, follow_of_parse output s _ (Text.decode?_encode line')
    ((parse_congr hwords).trans hparse)]

end EditLoop

/-- The kinds of line that name a tag: a label in either direction, and a filter. -/
inductive TagLine where
  | label (direction : RelationDirection)
  | filter

namespace TagLine

variable {σ : Type} [AnnotationStore σ] {s : Session σ} {kind : TagLine} {name : String} {tag : Tag}

/-- The word that such a line begins with, by which the kind of the line is told. -/
def word : TagLine → String
  | label .rightToLeft => "l"
  | label .leftToRight => "r"
  | filter => "f"

/-- The line for the tag of a name, with a blank between the word of the kind and the name. -/
def line (kind : TagLine) (name : String) : String := kind.word ++ " " ++ name

/-- The command for the tag of a name, which is what the line is meant to be. -/
def command (name : String) : TagLine → EditCommand
  | label direction => .relation direction name
  | filter => .filter (some name)

/-- What it is to choose a tag: to label the current pair with it, or to set it as the filter. -/
def choose (s : Session σ) (tag : Tag) : TagLine → Turn σ
  | label direction =>
    let (outcome, pairs, store) := s.applied direction tag
    EditLoop.showing (EditLoop.complaint outcome) { s with pairs, store }.reindex
  | filter => EditLoop.showing "" { s with cursor := { s.cursor with filter := some tag } }

/-- What it is to be told that there is no tag of a name. -/
def refuse (s : Session σ) (name : String) : Turn σ :=
  EditLoop.showing ((EditorError.unknownTag name).userMessage ++ "\n") s

/-- **A line chooses a tag**: it is the command for the name of the tag, and the loop answers it by
choosing this very tag. -/
structure Chooses (kind : TagLine) (s : Session σ) (line : String) (tag : Tag) : Prop where
  parsed : EditCommand.parse line = .ok (kind.command tag.name)
  answered : EditLoop.AnswersWith s line (kind.choose s tag)

/-- The word that a line begins with is a word: it has no white space in it. -/
theorem isWord_word (kind : TagLine) : Text.IsWord kind.word.toList := by
  rcases kind with (_ | _) | _ <;> decide

/-- Two names are two commands, so the name can be told from the command. -/
theorem command_inj {name' : String} : kind.command name = kind.command name' ↔ name = name' := by
  cases kind <;> simp [command]

/-- A line with a tag has no line break as long as the name has none. -/
theorem lineFeed_not_mem_line (h : '\n' ∉ name.toList) : '\n' ∉ (kind.line name).toList := by
  have hword : '\n' ∉ kind.word.toList := by rcases kind with (_ | _) | _ <;> decide
  simp [line, hword, h]

/-- **The name on a line is read with single blanks between its words.** -/
theorem parse_line (hblank : Text.isAllBlank name = false) (kind : TagLine) :
    EditCommand.parse (kind.line name) = .ok (kind.command (Text.spaced name)) := by
  have hwords : Text.words (kind.line name) = kind.word :: Text.words name :=
    Text.words_append (isWord_word kind) name
  have hname : EditCommand.tagName? (Text.words name) = some (Text.spaced name) := by
    have hne : Text.words name ≠ [] := by simp [Text.words_eq_nil_iff, hblank]
    simp [EditCommand.tagName?, Text.spaced, hne]
  rcases kind with (_ | _) | _ <;>
    simp [EditCommand.parse, hwords, word, EditCommand.labelling, hname, command]

/-- What a command does that names a tag of the tag set. -/
theorem obey_command (htag : s.tags.find? name = some tag) (kind : TagLine) :
    EditLoop.obey s (kind.command name) = kind.choose s tag := by
  have hlookup : s.tag name = .ok tag := by rw [Session.tag, htag]
  cases kind with
  | label direction =>
    simp only [command, EditLoop.obey, Session.select_of_tag direction hlookup]
    rfl
  | filter =>
    simp only [command, EditLoop.obey, Session.setFilter, hlookup]
    rfl

/-- What a command does that names no tag of the tag set. -/
theorem obey_command_of_none (htag : s.tags.find? name = none) (kind : TagLine) :
    EditLoop.obey s (kind.command name) = refuse s name := by
  have hlookup : s.tag name = .error (.unknownTag name) := by rw [Session.tag, htag]
  cases kind with
  | label direction =>
    simp only [command, EditLoop.obey, Session.select_of_no_tag direction hlookup]
    rfl
  | filter =>
    simp only [command, EditLoop.obey, Session.setFilter, hlookup]
    rfl

/-- A line chooses the tag that the name on it finds with single blanks between its words. -/
theorem chooses_of_spaced (hblank : Text.isAllBlank name = false) (hbreak : '\n' ∉ name.toList)
    (htag : s.tags.find? (Text.spaced name) = some tag) (kind : TagLine) :
    kind.Chooses s (kind.line name) tag := by
  have hparse := parse_line hblank kind
  constructor
  · rw [hparse, TagSet.name_of_find? htag]
  · rw [← obey_command htag]
    exact EditLoop.answersWith_of_parse s (lineFeed_not_mem_line hbreak) hparse

/-- A line is refused if that name finds no tag. -/
theorem refused_of_spaced (hblank : Text.isAllBlank name = false) (hbreak : '\n' ∉ name.toList)
    (htag : s.tags.find? (Text.spaced name) = none) (kind : TagLine) :
    EditLoop.AnswersWith s (kind.line name) (refuse s (Text.spaced name)) := by
  rw [← obey_command_of_none htag kind]
  exact EditLoop.answersWith_of_parse s (lineFeed_not_mem_line hbreak) (parse_line hblank kind)

/-- A line that chooses a tag by its own name has it evenly spaced. -/
theorem Chooses.evenlySpaced (hblank : Text.isAllBlank tag.name = false)
    (h : kind.Chooses s (kind.line tag.name) tag) : Text.EvenlySpaced tag.name.toList := by
  have hparse := h.parsed
  rw [parse_line hblank, Except.ok.injEq, command_inj] at hparse
  exact Text.spaced_eq_self_iff.1 hparse

/-- **A tag is chosen by its name exactly if the name is evenly spaced.**  In every session, and for
every tag that its name finds and whose name is not blank and has no line feed in it, the lines to
label and to filter with this name choose the tag exactly if the name is evenly spaced.  Otherwise
they choose another tag, if there is one whose name has the same words with single blanks between
them, and are refused if there is none. -/
theorem chooses_iff (s : Session σ) (kind : TagLine) {tag : Tag}
    (hfind : s.tags.find? tag.name = some tag) (hblank : Text.isAllBlank tag.name = false)
    (hbreak : '\n' ∉ tag.name.toList) :
    (kind.Chooses s (kind.line tag.name) tag ↔ Text.EvenlySpaced tag.name.toList) ∧
      (¬ Text.EvenlySpaced tag.name.toList →
        (∀ other, s.tags.find? (Text.spaced tag.name) = some other →
          other ≠ tag ∧ kind.Chooses s (kind.line tag.name) other) ∧
        (s.tags.find? (Text.spaced tag.name) = none →
          EditLoop.AnswersWith s (kind.line tag.name) (refuse s (Text.spaced tag.name)))) := by
  refine ⟨⟨Chooses.evenlySpaced hblank, fun hspaced => ?_⟩, fun hspaced => ⟨?_, ?_⟩⟩
  · refine chooses_of_spaced hblank hbreak ?_ kind
    rw [Text.spaced_eq_self_iff.2 hspaced, hfind]
  · intro other hother
    refine ⟨?_, chooses_of_spaced hblank hbreak hother kind⟩
    rintro rfl
    exact hspaced (Text.spaced_eq_self_iff.1 (TagSet.name_of_find? hother).symm)
  · exact fun hnone => refused_of_spaced hblank hbreak hnone kind

end TagLine

/-- Three sentences without relations, and two tags whose names have the same words. -/
def Document.twoSpacings : Document :=
  { threeTagged [] 3 with
    tagSets := [⟨"webanno.custom.SentenceRelation", "label",
      ⟨"Relations", [⟨"part of", none⟩, ⟨"part  of", none⟩]⟩⟩] }

/-- The segments of the document with two spacings of a tag are its three sentences. -/
theorem Document.load_twoSpacings : SegmentList.load twoSpacings {} = threeSegments :=
  (SegmentList.load_congr rfl rfl rfl isPreAnnotatedFormat_threeSentences).trans load_threeSentences

namespace TagLine

/-- A session that offers both of these tags, whose names differ in their spacing alone. -/
theorem start_twoSpacings :
    ∃ s₀, Session.start (⟨Document.twoSpacings, none, {}⟩ : FileStore) {} = .ok s₀ ∧
      ∀ name, s₀.tags.find? name =
        [⟨"part of", none⟩, ⟨"part  of", none⟩, Tag.unset].find? (·.name == name) := by
  obtain ⟨s₀, hstart⟩ :
      ∃ s₀, Session.start (⟨Document.twoSpacings, none, {}⟩ : FileStore) {} = .ok s₀ :=
    Session.exists_start_of_load Document.load_twoSpacings (by decide)
  obtain ⟨-, -, -, hindex, -, -⟩ := Session.start_eq_ok hstart
  refine ⟨s₀, hstart, fun name => ?_⟩
  rw [Session.tags, hindex]
  rfl

/-- The tag with one blank in its name is chosen by each of the lines. -/
theorem chooses_partOf :
    ∃ s₀, Session.start (⟨Document.twoSpacings, none, {}⟩ : FileStore) {} = .ok s₀ ∧
      ∀ kind : TagLine, kind.Chooses s₀ (kind.line "part of") ⟨"part of", none⟩ := by
  obtain ⟨s₀, hstart, htags⟩ := start_twoSpacings
  have htag : s₀.tags.find? (Tag.mk "part of" none).name = some ⟨"part of", none⟩ := htags _
  exact ⟨s₀, hstart, fun kind => (chooses_iff s₀ kind htag (by decide) (by decide)).1.2 (by decide)⟩

/-- The tag with two blanks in its name is chosen by none of the lines, which all choose the other
tag. -/
theorem partOf_chosen_for_other :
    ∃ s₀, Session.start (⟨Document.twoSpacings, none, {}⟩ : FileStore) {} = .ok s₀ ∧
      s₀.tags.find? "part  of" = some ⟨"part  of", none⟩ ∧
      ∀ kind : TagLine, kind.Chooses s₀ (kind.line "part  of") ⟨"part of", none⟩ ∧
        ¬ kind.Chooses s₀ (kind.line "part  of") ⟨"part  of", none⟩ := by
  obtain ⟨s₀, hstart, htags⟩ := start_twoSpacings
  refine ⟨s₀, hstart, htags _, fun kind => ⟨?_, fun hchooses => ?_⟩⟩
  · exact chooses_of_spaced (by decide) (by decide) (htags _) kind
  · have hspaced : Text.EvenlySpaced (Tag.mk "part  of" none).name.toList :=
      Chooses.evenlySpaced (by decide) hchooses
    exact absurd hspaced (by decide)

end TagLine

end PairAnnotation
