/-
# Stores with locked methods

A store can be wrapped in a guard that refuses some of its changes.  Each of the
five methods has a lock of its own: it lets a number of calls pass and then refuses
a number of calls, before the store below sees them.
-/

import PairAnnotation.Store.Basic

namespace PairAnnotation

/-- The methods of a store that change something, each of which has a lock of its own. -/
inductive StoreMethod where
  | addSpan
  | addRelation
  | setFeature
  | delete
  | write
  deriving DecidableEq, Repr, Inhabited

/-- The name under which a refusal speaks of a method. -/
def StoreMethod.name : StoreMethod → String
  | .addSpan => "add_span"
  | .addRelation => "add_relation"
  | .setFeature => "set_feature_value"
  | .delete => "delete"
  | .write => "write"

/-- How many calls pass, and how many are refused after that. -/
structure Lock where
  skip : Nat := 0
  times : Nat := 0
  deriving DecidableEq, Repr, Inhabited

/-- Whether a call is refused, and the lock afterwards, which has counted the call. -/
def Lock.turn (l : Lock) : Bool × Lock :=
  if 0 < l.skip then (false, { l with skip := l.skip - 1 })
  else if 0 < l.times then (true, { l with times := l.times - 1 })
  else (false, l)

/-- A store behind locks, which answer before the store is asked. -/
structure Guarded (σ : Type) where
  store : σ
  locks : StoreMethod → Lock := fun _ => {}

namespace Guarded

variable {σ : Type}

/-- Put a lock on a method, in place of the one it has. -/
def lock (g : Guarded σ) (method : StoreMethod) (l : Lock) : Guarded σ :=
  { g with locks := fun m => if m = method then l else g.locks m }

/-- A change behind its lock: a call that is refused does not get to the store. -/
def guarding {α : Type} (method : StoreMethod) (e : Edit σ α) : Edit (Guarded σ) α :=
  .of fun g =>
    let (refused, l) := (g.locks method).turn
    let g := g.lock method l
    if refused then (.error (.rejected (method.name ++ " is locked")), g)
    else
      let (outcome, store) := e.apply g.store
      (outcome, { g with store })

instance [AnnotationStore σ] : AnnotationStore (Guarded σ) where
  document g := AnnotationStore.document g.store
  addSpan layer span := guarding .addSpan (AnnotationStore.addSpan layer span)
  addRelation layer dependent governor :=
    guarding .addRelation (AnnotationStore.addRelation layer dependent governor)
  setFeature id feature value :=
    guarding .setFeature (AnnotationStore.setFeature id feature value)
  delete id := guarding .delete (AnnotationStore.delete id)
  write := guarding .write AnnotationStore.write

/-- **A lock refuses a change or lets it through**, so a store behind locks follows the document as
the store does. -/
theorem guarding_follows [AnnotationStore σ] {α : Type} (method : StoreMethod) {e : Edit σ α}
    {f : Document → Except StoreError (α × Document)} (h : FollowsDocument e f) :
    FollowsDocument (guarding method e) f := by
  intro g g'
  simp only [guarding, Edit.apply_of]
  split
  · refine ⟨fun a ha => by simp at ha, fun err he => ?_⟩
    injection he with _ he
    exact he ▸ rfl
  · refine ⟨fun a ha => ?_, fun err he => ?_⟩
    · injection ha with h₁ h₂
      subst h₂
      exact (h g.store _).1 a (Prod.ext h₁ rfl)
    · injection he with h₁ h₂
      subst h₂
      exact (h g.store _).2 err (Prod.ext h₁ rfl)

instance [AnnotationStore σ] [LawfulStore σ] : LawfulStore (Guarded σ) where
  addSpan _ _ := guarding_follows _ (LawfulStore.addSpan _ _)
  addRelation _ _ _ := guarding_follows _ (LawfulStore.addRelation _ _ _)
  setFeature _ _ _ := guarding_follows _ (LawfulStore.setFeature _ _ _)
  delete _ := guarding_follows _ (LawfulStore.delete _)
  write := guarding_follows _ LawfulStore.write

end Guarded

end PairAnnotation
