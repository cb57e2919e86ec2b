/-
# Annotation stores

A store holds a document and accepts five changes: a new span annotation, a new
relation, a feature value, a deletion, and writing the document where it is kept.
A change answers or fails, and hands on the store either way; that a failed change
leaves the document as it was is a promise of each store, stated as `LawfulStore`.
-/

import PairAnnotation.Document.Basic

namespace PairAnnotation

/-- A change of a store: an answer or a refusal, and the store afterwards. -/
abbrev Edit (σ α : Type) : Type := ExceptT StoreError (StateM σ) α

namespace Edit

variable {σ α : Type}

/-- A change given as a function of the store, which tells the outcome and the store afterwards. -/
def of (f : σ → Except StoreError α × σ) : Edit σ α := ExceptT.mk fun s => f s

/-- The outcome of a change, and the store afterwards, be the change accepted or refused. -/
def apply (e : Edit σ α) (s : σ) : Except StoreError α × σ := e.run.run s

@[simp]
theorem apply_of (f : σ → Except StoreError α × σ) (s : σ) : (of f).apply s = f s := rfl

end Edit

/-- **What a session needs of a store**: its document, and five changes that it may refuse. -/
class AnnotationStore (σ : Type) where
  document : σ → Document
  addSpan : String → Span → Edit σ AnnotationId
  addRelation : String → AnnotationId → AnnotationId → Edit σ AnnotationId
  setFeature : AnnotationId → String → String → Edit σ Unit
  delete : AnnotationId → Edit σ Unit
  write : Edit σ Unit

/-- How a change of a store bears on its document: an accepted change is the change `f` of the
document, and a refused one is none at all. -/
def FollowsDocument {σ α : Type} [AnnotationStore σ] (e : Edit σ α)
    (f : Document → Except StoreError (α × Document)) : Prop :=
  ∀ s s' : σ,
    (∀ a, e.apply s = (.ok a, s') →
      f (AnnotationStore.document s) = .ok (a, AnnotationStore.document s')) ∧
    (∀ err, e.apply s = (.error err, s') →
      AnnotationStore.document s' = AnnotationStore.document s)

/-- **The contract of a store**: each change that is accepted does to the document what the
document's own edit does, writing does nothing to it, and a refused change leaves it alone. -/
class LawfulStore (σ : Type) [AnnotationStore σ] : Prop where
  addSpan (layer : String) (span : Span) :
    FollowsDocument (σ := σ) (AnnotationStore.addSpan layer span) (·.addSpan layer span)
  addRelation (layer : String) (dependent governor : AnnotationId) :
    FollowsDocument (σ := σ) (AnnotationStore.addRelation layer dependent governor)
      (·.addRelation layer dependent governor)
  setFeature (id : AnnotationId) (feature value : String) :
    FollowsDocument (σ := σ) (AnnotationStore.setFeature id feature value)
      fun d => (d.setFeature id feature value).map ((), ·)
  delete (id : AnnotationId) :
    FollowsDocument (σ := σ) (AnnotationStore.delete id) fun d => (d.delete id).map ((), ·)
  write : FollowsDocument (σ := σ) AnnotationStore.write fun d => .ok ((), d)

end PairAnnotation
