/-
# Documents bound to a file

A document that knows where it is kept.  Writing puts its text on the disk; a
document that is bound to no path is kept nowhere, and writing it always succeeds.
-/

import PairAnnotation.Disk
import PairAnnotation.Document.Json
import PairAnnotation.Error
import PairAnnotation.Store.Basic

namespace PairAnnotation

/-- A document, the path it is written to, and the disk with that path. -/
structure FileStore where
  document : Document
  path : Option String
  disk : Disk
  deriving Inhabited

namespace FileStore

/-- An edit of the document alone: if it is refused, the document stays, and neither path nor disk
is touched. -/
def editing {α : Type} (f : Document → Except StoreError (α × Document)) : Edit FileStore α :=
  .of fun s =>
    match f s.document with
    | .ok (a, d) => (.ok a, { s with document := d })
    | .error e => (.error e, s)

/-- Put the text of the document on the disk, if the document is bound to a path; it succeeds
without one. -/
def writeBack : Edit FileStore Unit :=
  .of fun s =>
    match s.path with
    | none => (.ok (), s)
    | some path =>
      match s.disk.write path s.document.toText with
      | .ok disk => (.ok (), { s with disk })
      | .error _ => (.error (.io path), s)

instance : AnnotationStore FileStore where
  document := FileStore.document
  addSpan layer span := editing (·.addSpan layer span)
  addRelation layer dependent governor := editing (·.addRelation layer dependent governor)
  setFeature id feature value := editing fun d => (d.setFeature id feature value).map ((), ·)
  delete id := editing fun d => (d.delete id).map ((), ·)
  write := writeBack

/-- **A change of the document of a file follows the document**: the file takes what the document
accepts, and stays as it is otherwise. -/
theorem editing_follows {α : Type} (f : Document → Except StoreError (α × Document)) :
    FollowsDocument (editing f) f := by
  intro s s'
  simp only [editing, Edit.apply_of]
  cases h : f s.document with
  | error e =>
    refine ⟨fun a ha => by simp at ha, fun e' he => ?_⟩
    injection he with _ he
    exact he ▸ rfl
  | ok r =>
    refine ⟨fun a ha => ?_, fun e' he => by simp at he⟩
    injection ha with h₁ h₂
    injection h₁ with h₁
    subst h₁ h₂
    rfl

/-- Writing follows the document, which it does not change, whether the disk takes the text or
not. -/
theorem writeBack_follows : FollowsDocument writeBack fun d => .ok ((), d) := by
  intro s s'
  simp only [writeBack, Edit.apply_of]
  split
  · exact ⟨fun a ha => by injection ha with _ ha; exact ha ▸ rfl, fun e he => by simp at he⟩
  · split
    · exact ⟨fun a ha => by injection ha with _ ha; exact ha ▸ rfl, fun e he => by simp at he⟩
    · exact ⟨fun a ha => by simp at ha, fun e he => by injection he with _ he; exact he ▸ rfl⟩

instance : LawfulStore FileStore where
  addSpan _ _ := editing_follows _
  addRelation _ _ _ := editing_follows _
  setFeature _ _ _ := editing_follows _
  delete _ := editing_follows _
  write := writeBack_follows

/-- **Load a document from a file and bind it there.** -/
def load (disk : Disk) (path : String) : Except EditorError FileStore :=
  match disk.read path with
  | .error _ => .error (.documentLoad ("reading " ++ path))
  | .ok text =>
    match Document.ofText? text with
    | none => .error (.documentLoad ("parsing " ++ path))
    | some d => .ok ⟨d.reserveIds, some path, disk⟩

/-- Bind the document to another path, where it is written from then on. -/
def bind (s : FileStore) (path : String) : FileStore := { s with path := some path }

/-- Write the document to a path without binding it there. -/
def save (s : FileStore) (path : String) : Except EditorError FileStore :=
  match s.disk.write path s.document.toText with
  | .ok disk => .ok { s with disk }
  | .error _ => .error (.fileIO path)

end FileStore

end PairAnnotation
