/-
# Tables that are written are read back

A text of tables has a header for each table, one line for each of its assignments, and blank lines
between the tables.  The reader keeps an outline of what it has read: a header adds an empty table
to it, and an assignment adds an entry to the table of the last header.  So as long as no name of a
table and no key of a table comes twice, each line adds what it says (`LeadsTo.header`,
`LeadsTo.assignment`), and the tables are read back from their text, whatever the values are whose
texts are read back (`parse_tablesText`).
-/

import PairAnnotation.Proofs.Toml.Numbers

namespace PairAnnotation
namespace Toml

variable {c : Char} {cs rest text : List Char} {key name : String} {value : Node}

/-! ### Keys -/

/-- **A key that needs no quotes**: it is not empty, and it has only letters, digits and the two
bars. -/
structure IsBareKey (key : String) : Prop where
  ne_nil : key.toList ≠ []
  bare : ∀ c ∈ key.toList, isBareKeyChar c = true

instance (key : String) : Decidable (IsBareKey key) :=
  decidable_of_iff (key.toList ≠ [] ∧ key.toList.all isBareKeyChar = true)
    ⟨fun h => ⟨h.1, List.all_eq_true.1 h.2⟩, fun h => ⟨h.ne_nil, List.all_eq_true.2 h.bare⟩⟩

/-- A key has a first character, which tells its line from a header, a comment and an empty line. -/
theorem IsBareKey.exists_cons (h : IsBareKey key) :
    ∃ c tail, key.toList = c :: tail ∧ isBareKeyChar c = true := by
  obtain ⟨c, tail, hcs⟩ := List.exists_cons_of_ne_nil h.ne_nil
  exact ⟨c, tail, hcs, h.bare c (hcs ▸ List.mem_cons_self)⟩

/-- No character of a bare key is blank, so nothing is skipped in front of a key. -/
theorem isBlank_of_isBareKeyChar (h : isBareKeyChar c = true) : isBlank c = false := by
  simp [isBlank, ne_of_class h (d := ' ') rfl, ne_of_class h (d := '\t') rfl]

/-- A bare key is read up to the first character that cannot stand in one. -/
theorem readKeyPart_bare (h : IsBareKey key)
    (hrest : ∀ c ∈ rest.head?, isBareKeyChar c = false) :
    readKeyPart (key.toList ++ rest) = some (key, rest) := by
  obtain ⟨htake, hdrop⟩ := Text.takeWhile_append_of_head? h.bare hrest
  obtain ⟨c, tail, hcs, hc⟩ := h.exists_cons
  rw [hcs, List.cons_append] at htake hdrop ⊢
  rw [readKeyPart, htake, hdrop]
  · rw [if_neg (List.cons_ne_nil c tail), ← hcs, String.ofList_toList]
  all_goals
    rintro _ heq
    exact ne_of_class hc rfl (List.cons.inj heq).1

/-- **A key of one part is read**, and the blanks after it. -/
theorem readKey_bare (h : IsBareKey key) (hrest : ∀ c ∈ rest.head?, isBareKeyChar c = false)
    (hdot : ∀ tail, skipBlanks rest ≠ '.' :: tail) :
    readKey (key.toList ++ rest) = some ([], key, skipBlanks rest) := by
  have hpart := readKeyPart_bare h hrest
  have hskip : skipBlanks (key.toList ++ rest) = key.toList ++ rest := by
    obtain ⟨c, tail, hcs, hc⟩ := h.exists_cons
    rw [hcs, List.cons_append, skipBlanks_of_not_blank (isBlank_of_isBareKeyChar hc)]
  have hparts : readKeyParts ((key.toList ++ rest).length + 1) (key.toList ++ rest) =
      some ([key], skipBlanks rest) := by
    rw [readKeyParts, hskip, hpart, Option.bind_eq_bind, Option.bind_some]
    dsimp only
    split
    · rename_i heq
      exact absurd heq (hdot _)
    · rfl
  rw [readKey, hparts]
  rfl

/-! ### Lines -/

theorem lineEnd?_lineBreak (rest : List Char) : lineEnd? ('\n' :: rest) = some rest := rfl

/-- A character that is asked for and is there is read. -/
theorem char?_self (c : Char) (rest : List Char) : char? c (c :: rest) = some rest := if_pos rfl

/-- **The line of a header opens its table**, and the rest of the text is left to be read. -/
theorem readLineInto_header {o o' : Outline} (h : IsBareKey name)
    (ho : o.openTable [] name = some o') :
    readLineInto o (header name ++ rest) = some (o', rest) := by
  have hkey : readKey (name.toList ++ ']' :: '\n' :: rest) =
      some ([], name, ']' :: '\n' :: rest) :=
    readKey_bare h (by rintro _ ⟨⟩; rfl) (by rintro _ heq; cases heq)
  have htext : header name ++ rest = '[' :: (name.toList ++ ']' :: '\n' :: rest) := by
    simp [header]
  rw [htext, readLineInto]
  · simp only [hkey, Option.bind_eq_bind, Option.bind_some, char?_self, lineEnd?_lineBreak, ho]
  · obtain ⟨c, tail, hcs, hc⟩ := h.exists_cons
    rintro _ heq
    rw [hcs] at heq
    exact ne_of_class hc rfl (List.cons.inj heq).1

/-- **The line of an assignment enters its value** in the table that was opened last, and the rest
of the text is left to be read. -/
theorem readLineInto_assignment {o o' : Outline} (h : IsBareKey key) (hvalue : IsTextOf text value)
    (ho : o.assign [] key value = some o') :
    readLineInto o (assignment key text ++ rest) = some (o', rest) := by
  obtain ⟨after, hafter⟩ : ∃ after, ' ' :: '=' :: ' ' :: (text ++ '\n' :: rest) = after := ⟨_, rfl⟩
  have hkey : readKey (key.toList ++ after) =
      some ([], key, '=' :: ' ' :: (text ++ '\n' :: rest)) := by
    rw [← hafter]
    exact readKey_bare h (by rintro _ ⟨⟩; rfl) (by rintro _ heq; cases heq)
  have hskip : skipBlanks (' ' :: (text ++ '\n' :: rest)) = text ++ '\n' :: rest :=
    skipBlanks_append [' '] rfl (hvalue.starts rest)
  have hread := hvalue.reads rest (2 * (key.toList ++ after).length + 2) (by
    rw [← hafter]
    simp only [List.length_append, List.length_cons]
    omega)
  have htext : assignment key text ++ rest = key.toList ++ after := by
    simp [assignment, ← hafter]
  obtain ⟨c, tail, hcs, hc⟩ := h.exists_cons
  rw [htext]
  rw [hcs, List.cons_append] at hkey hread ⊢
  rw [readLineInto]
  · simp only [hkey, Option.bind_eq_bind, Option.bind_some, char?_self, hskip, hread,
      lineEnd?_lineBreak, ho]
  all_goals
    rintro _ heq
    exact ne_of_class hc rfl (List.cons.inj heq).1

/-- **A text leads from an outline to tables**: reading it to its end gives them. -/
def LeadsTo (o : Outline) (cs : List Char) (tables : Entries) : Prop :=
  ∀ fuel, cs.length < fuel → (readAll fuel o cs).map (·.entries) = some tables

namespace LeadsTo

variable {o o' : Outline} {tables : Entries}

/-- At the end of the text the outline has led to the entries that it has by then. -/
theorem nil (o : Outline) : LeadsTo o [] o.entries := by
  intro fuel hfuel
  obtain ⟨fuel, rfl⟩ := Nat.exists_eq_succ_of_ne_zero (Nat.ne_zero_of_lt hfuel)
  rfl

/-- A line with nothing in it leads nowhere else, so tables may be set apart by empty lines. -/
theorem blank (h : LeadsTo o cs tables) : LeadsTo o ('\n' :: cs) tables := by
  intro fuel hfuel
  obtain ⟨fuel, rfl⟩ := Nat.exists_eq_succ_of_ne_zero (Nat.ne_zero_of_lt hfuel)
  exact h fuel (Nat.lt_of_succ_lt_succ hfuel)

/-- A line that starts with neither blank nor line break is read into the outline. -/
theorem line {line : List Char} (h : LeadsTo o' cs tables) (hline : line.head? = some c)
    (hblank : isBlank c = false) (hfeed : c ≠ '\n') (hreturn : c ≠ '\r')
    (hread : readLineInto o (line ++ cs) = some (o', cs)) : LeadsTo o (line ++ cs) tables := by
  intro fuel hfuel
  obtain ⟨fuel, rfl⟩ := Nat.exists_eq_succ_of_ne_zero (Nat.ne_zero_of_lt hfuel)
  obtain ⟨tail, rfl⟩ := List.head?_eq_some_iff.1 hline
  rw [List.cons_append] at hread hfuel ⊢
  rw [readAll, skipBlanks_of_not_blank hblank]
  dsimp only
  rw [newline?_of_ne hfeed hreturn]
  dsimp only
  rw [hread, Option.bind_eq_bind, Option.bind_some]
  refine h fuel ?_
  simp only [List.length_cons, List.length_append] at hfuel
  omega

/-- **A header opens its table**, and the text goes on from there. -/
theorem header (h : LeadsTo o' cs tables) (hname : IsBareKey name)
    (ho : o.openTable [] name = some o') : LeadsTo o (header name ++ cs) tables :=
  h.line (c := '[') rfl rfl (by decide) (by decide) (readLineInto_header hname ho)

/-- **An assignment enters its value**, and the text goes on from there. -/
theorem assignment (h : LeadsTo o' cs tables) (hkey : IsBareKey key) (hvalue : IsTextOf text value)
    (ho : o.assign [] key value = some o') : LeadsTo o (assignment key text ++ cs) tables := by
  obtain ⟨c, tail, hcs, hc⟩ := hkey.exists_cons
  refine h.line (c := c) ?_ (isBlank_of_isBareKeyChar hc) (ne_of_class hc rfl)
    (ne_of_class hc rfl) (readLineInto_assignment hkey hvalue ho)
  rw [Toml.assignment, hcs]
  rfl

end LeadsTo

/-! ### Outlines -/

namespace Entries

/-- Replacing the value of a name that stands only at the end replaces it there. -/
theorem replace_append {tables : Entries} (h : tables.lookup name = none) (old new : Node) :
    replace name new (tables ++ [(name, old)]) = tables ++ [(name, new)] := by
  induction tables with
  | nil => exact if_pos rfl
  | cons t tables ih =>
    obtain ⟨k, node⟩ := t
    rw [List.lookup_cons] at h
    split at h
    · cases h
    · rename_i hne
      have hk : k ≠ name := fun heq => by simp [heq] at hne
      rw [List.cons_append, replace, if_neg hk, ih h]
      rfl

/-- A key without dots is new in the table of a header. -/
theorem assign_new {fields : Entries} (h : fields.lookup key = none) (value : Node) :
    assign [] key value .explicit fields = some (fields ++ [(key, value)]) := by
  have hdotted : ¬ (TableKind.explicit = .dotted ↔ ([] : List String) = []) := by decide
  rw [assign, update, if_neg hdotted, define, h]
  rfl

end Entries

namespace Outline

/-- The outline in the last one of some tables, with the fields that it has so far. -/
def inTable (tables : Entries) (name : String) (fields : Entries) : Outline :=
  ⟨tables ++ [(name, .table .explicit fields)], [name]⟩

/-- A header of a new name opens an empty table. -/
theorem openTable_new {o : Outline} (h : o.entries.lookup name = none) :
    o.openTable [] name = some (inTable o.entries name []) := by
  rw [openTable, Entries.openTable, Entries.update, h]
  rfl

/-- A new key goes to the end of the table of the last header. -/
theorem assign_new {tables fields : Entries} (hname : tables.lookup name = none)
    (hkey : fields.lookup key = none) (value : Node) :
    (inTable tables name fields).assign [] key value =
      some (inTable tables name (fields ++ [(key, value)])) := by
  have hlookup : (tables ++ [(name, Node.table .explicit fields)]).lookup name =
      some (.table .explicit fields) := by
    rw [List.lookup_append, hname]
    simp
  rw [assign, inTable, Entries.update, hlookup]
  simp only [Entries.update, Entries.assign_new hkey value, Entries.replace_append hname,
    Option.bind_eq_bind, Option.bind_some]
  rfl

end Outline

/-! ### Texts of tables -/

/-- An assignment, with the text of its value, which is not yet known to be one. -/
structure FieldText where
  key : String
  text : List Char
  value : Node

namespace FieldText

/-- The line of an assignment, with its line break. -/
def line (f : FieldText) : List Char := assignment f.key f.text

/-- What an assignment enters: its key and the value that its text is meant to have. -/
def entry (f : FieldText) : String × Node := (f.key, f.value)

/-- The key needs no quotes, and the text is one of the value. -/
structure Proper (f : FieldText) : Prop where
  key : IsBareKey f.key
  value : IsTextOf f.text f.value

/-- A string under a key, quoted in the plainest form for it. -/
def string (key s : String) : FieldText := ⟨key, quoted s, .string s⟩

/-- An array of strings under a key, each of them on a line of its own if there are several. -/
def strings (key : String) (items : List String) : FieldText :=
  ⟨key, stringArray items, .array (items.map .string)⟩

/-- A natural number under a key, with its decimal digits as they are. -/
def nat (key : String) (n : Nat) : FieldText := ⟨key, Nat.toDigits 10 n, .integer n⟩

/-- A field with a text is proper as soon as its key is a bare one. -/
theorem Proper.string (h : IsBareKey key) (s : String) : (FieldText.string key s).Proper :=
  ⟨h, isTextOf_quoted s⟩

/-- A field with a list of texts is proper as soon as its key is a bare one. -/
theorem Proper.strings (h : IsBareKey key) (items : List String) :
    (FieldText.strings key items).Proper :=
  ⟨h, isTextOf_stringArray items⟩

/-- A field with a number is proper if its key is a bare one and the number is in range. -/
theorem Proper.nat (h : IsBareKey key) {n : Nat} (hn : n < 2 ^ 63) : (FieldText.nat key n).Proper :=
  ⟨h, isTextOf_toDigits hn⟩

end FieldText

/-- A table with a header, and the assignments under it. -/
structure TableText where
  name : String
  fields : List FieldText

namespace TableText

/-- The lines of a table: its header, and then those of its fields. -/
def lines (t : TableText) : List Char := header t.name ++ t.fields.flatMap FieldText.line

/-- What a table enters: its name, and under it what its fields enter. -/
def entry (t : TableText) : String × Node := (t.name, .table .explicit (t.fields.map (·.entry)))

/-- The name needs no quotes, and neither do the keys, of which none comes twice. -/
structure Proper (t : TableText) : Prop where
  name : IsBareKey t.name
  fields : ∀ f ∈ t.fields, f.Proper
  nodup : (t.fields.map (·.key)).Nodup

end TableText

/-- The lines of tables, with a blank line between any two of them. -/
def tablesText : List TableText → List Char
  | [] => []
  | [t] => t.lines
  | t :: tables => t.lines ++ '\n' :: tablesText tables

/-- A name that no element of a list is mapped to is not found among the images. -/
theorem lookup_map_eq_none {α : Type} {f : α → String × Node} {l : List α}
    (h : ∀ a ∈ l, (f a).1 ≠ key) : (l.map f).lookup key = none := by
  rw [List.lookup_eq_none_iff]
  intro p hp
  obtain ⟨a, ha, rfl⟩ := List.mem_map.1 hp
  exact bne_iff_ne.2 (h a ha).symm

/-- Of things with distinct keys, those before one have other keys than it. -/
theorem key_ne_of_nodup {α : Type} {key : α → String} {front back : List α} {a : α}
    (h : ((front ++ a :: back).map key).Nodup) : ∀ b ∈ front, key b ≠ key a := by
  intro b hb
  rw [List.map_append] at h
  exact (List.nodup_append.1 h).2.2 _ (List.mem_map_of_mem hb) _ List.mem_cons_self

/-- **Assignments enter their values one after the other**, behind those that are entered. -/
theorem leadsTo_fields {tables result : Entries} (hname : tables.lookup name = none)
    (done : List FieldText) {fields : List FieldText} (hfields : ∀ f ∈ fields, f.Proper)
    (hnodup : ((done ++ fields).map (·.key)).Nodup)
    (h : LeadsTo (.inTable tables name ((done ++ fields).map (·.entry))) cs result) :
    LeadsTo (.inTable tables name (done.map (·.entry))) (fields.flatMap FieldText.line ++ cs)
      result := by
  induction fields generalizing done with
  | nil => simpa using h
  | cons f fields ih =>
    have hf := hfields f List.mem_cons_self
    have hkey : (done.map (·.entry)).lookup f.key = none :=
      lookup_map_eq_none (key_ne_of_nodup hnodup)
    have hrest := ih (done ++ [f]) (fun g hg => hfields g (List.mem_cons_of_mem _ hg))
      (by simpa using hnodup) (by simpa using h)
    rw [List.flatMap_cons, List.append_assoc]
    refine hrest.assignment hf.key hf.value ?_
    rw [Outline.assign_new hname hkey, List.map_append]
    rfl

/-- **Tables are entered one after the other**, behind those that are entered. -/
theorem leadsTo_tables (done : List TableText) {tables : List TableText}
    (htables : ∀ t ∈ tables, t.Proper)
    (hnodup : ((done ++ tables).map (·.name)).Nodup) (path : List String) :
    LeadsTo ⟨done.map (·.entry), path⟩ (tablesText tables) ((done ++ tables).map (·.entry)) := by
  induction tables generalizing done path with
  | nil =>
    rw [List.append_nil]
    exact .nil _
  | cons t tables ih =>
    have ht := htables t List.mem_cons_self
    have hname : (done.map (·.entry)).lookup t.name = none :=
      lookup_map_eq_none (key_ne_of_nodup hnodup)
    have hrest := ih (done ++ [t]) (fun u hu => htables u (List.mem_cons_of_mem _ hu))
      (by simpa using hnodup) [t.name]
    rw [List.append_assoc, List.singleton_append] at hrest
    have hafter : Outline.inTable (done.map (·.entry)) t.name (t.fields.map (·.entry)) =
        ⟨(done ++ [t]).map (·.entry), [t.name]⟩ := by
      rw [List.map_append]
      rfl
    obtain ⟨cs, htext, hcs⟩ : ∃ cs, tablesText (t :: tables) = t.lines ++ cs ∧
        LeadsTo ⟨(done ++ [t]).map (·.entry), [t.name]⟩ cs
          ((done ++ t :: tables).map (·.entry)) := by
      cases tables with
      | nil => exact ⟨[], (List.append_nil _).symm, hrest⟩
      | cons u tables => exact ⟨_, rfl, hrest.blank⟩
    rw [← hafter] at hcs
    rw [htext, TableText.lines, List.append_assoc]
    exact (leadsTo_fields hname [] ht.fields ht.nodup hcs).header ht.name
      (Outline.openTable_new hname)

/-- **Tables are read back from their text**, in their order, if no two of them have the same
name. -/
theorem parse_tablesText {tables : List TableText} (htables : ∀ t ∈ tables, t.Proper)
    (hnodup : (tables.map (·.name)).Nodup) :
    parse (String.ofList (tablesText tables)) = some (tables.map (·.entry)) := by
  have hleads := leadsTo_tables [] htables hnodup []
  -- No byte order mark comes before a header.
  have hmark : ∀ cs, tablesText tables ≠ '\uFEFF' :: cs := by
    intro cs heq
    match tables with
    | [] => cases heq
    | [t] => exact absurd (List.cons.inj heq).1 (by decide)
    | t :: u :: tables => exact absurd (List.cons.inj heq).1 (by decide)
  rw [parse, String.toList_ofList]
  split
  · rename_i heq
    exact absurd heq (hmark _)
  · exact hleads _ (Nat.lt_succ_self _)

end Toml
end PairAnnotation
