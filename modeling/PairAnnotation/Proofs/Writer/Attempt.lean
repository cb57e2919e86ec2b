/-
# How attempts end

An attempt either gets through, with an answer, or stops at a step that the store
refuses; either way there is a store and an account of what was done.  `Attempt.Ends`
says which of the two ends may come about from a store and an account, one condition
for each.  There is one rule for each way an attempt is put together, and the rule for
a step of the store (`ends_step`) needs no more than the contract of a store: where
the step is refused, the document is the one before it.
-/

import PairAnnotation.Writer

namespace PairAnnotation

variable {σ α β : Type}

/-- An edit that answers nothing is accepted when its document is. -/
theorem eq_ok_of_map_unit {x : Except StoreError Document} {answer : Unit} {d : Document}
    (h : x.map ((), ·) = .ok (answer, d)) : x = .ok d := by
  cases x with
  | error cause => cases h
  | ok d' =>
    injection h with h
    exact congrArg Except.ok (congrArg Prod.snd h)

namespace Attempt

/-- Which ends an attempt may come to, from a store and the account so far: `through` of the
answer, or `stopped` of the error. -/
def Ends (m : Attempt σ α) (s : σ) (undo : Undo) (through : α → σ → Undo → Prop)
    (stopped : EditorError → σ → Undo → Prop) : Prop :=
  match m.run.run (s, undo) with
  | (.ok a, s', undo') => through a s' undo'
  | (.error e, s', undo') => stopped e s' undo'

variable {m : Attempt σ α} {s : σ} {undo : Undo}
variable {through : α → σ → Undo → Prop} {stopped : EditorError → σ → Undo → Prop}

/-- What is known of both ends of an attempt may be weakened, each for itself. -/
theorem Ends.mono {through' : α → σ → Undo → Prop} {stopped' : EditorError → σ → Undo → Prop}
    (h : Ends m s undo through stopped) (ht : ∀ a s undo, through a s undo → through' a s undo)
    (hs : ∀ e s undo, stopped e s undo → stopped' e s undo) :
    Ends m s undo through' stopped' := by
  unfold Ends at h ⊢
  split at h
  · exact ht _ _ _ h
  · exact hs _ _ _ h

/-- **An attempt goes through or stops**, and either way what is claimed of that end holds of the
store and of the account that it leaves. -/
theorem Ends.cases (h : Ends m s undo through stopped) :
    (∃ a s' undo', m.run.run (s, undo) = (.ok a, s', undo') ∧ through a s' undo') ∨
      ∃ e s' undo', m.run.run (s, undo) = (.error e, s', undo') ∧ stopped e s' undo' := by
  unfold Ends at h
  split at h
  · rename_i hrun
    exact .inl ⟨_, _, _, hrun, h⟩
  · rename_i hrun
    exact .inr ⟨_, _, _, hrun, h⟩

/-- An attempt that only answers goes through at once, and it changes neither the store nor the
account. -/
theorem ends_pure {a : α} (h : through a s undo) : Ends (pure a) s undo through stopped := h

/-- What follows an attempt that went through starts from the store and the account that it left. -/
theorem run_bind_of_ok {f : α → Attempt σ β} {a : α} {s' : σ} {undo' : Undo}
    (h : m.run.run (s, undo) = (.ok a, s', undo')) :
    (m >>= f).run.run (s, undo) = (f a).run.run (s', undo') := by
  rw [ExceptT.run_bind, StateT.run_bind, h]
  rfl

/-- Nothing follows an attempt that stopped: its error is that of the whole, and store and account
stay as it left them. -/
theorem run_bind_of_error {f : α → Attempt σ β} {e : EditorError} {s' : σ} {undo' : Undo}
    (h : m.run.run (s, undo) = (.error e, s', undo')) :
    (m >>= f).run.run (s, undo) = (.error e, s', undo') := by
  rw [ExceptT.run_bind, StateT.run_bind, h]
  rfl

/-- A step that the store accepts goes through with the answer of the store. -/
theorem run_step_of_ok {name : String} {e : Edit σ α} {a : α} {s' : σ}
    (h : e.apply s = (.ok a, s')) : (step name e).run.run (s, undo) = (.ok a, s', undo) := by
  rw [step, ExceptT.run_mk, StateT.run]
  dsimp only
  rw [h]

/-- A step that the store refuses stops the attempt, with an error that names the step and says
why. -/
theorem run_step_of_error {name : String} {e : Edit σ α} {cause : StoreError} {s' : σ}
    (h : e.apply s = (.error cause, s')) :
    (step name e).run.run (s, undo) = (.error (.persistence name cause), s', undo) := by
  rw [step, ExceptT.run_mk, StateT.run]
  dsimp only
  rw [h]

/-- **One attempt after another**: the second one goes on where the first one got through. -/
theorem ends_bind {f : α → Attempt σ β} {through : β → σ → Undo → Prop}
    (h : Ends m s undo (fun a s' undo' => Ends (f a) s' undo' through stopped) stopped) :
    Ends (m >>= f) s undo through stopped := by
  rcases h.cases with ⟨a, s', undo', hrun, h⟩ | ⟨e, s', undo', hrun, h⟩
  · unfold Ends
    rw [run_bind_of_ok hrun]
    exact h
  · unfold Ends
    rw [run_bind_of_error hrun]
    exact h

/-- Noting something changes the account and leaves the store alone. -/
theorem ends_note {f : Undo → Undo} {through : Unit → σ → Undo → Prop}
    (h : through () s (f undo)) : Ends (note f) s undo through stopped := h

variable [AnnotationStore σ]

theorem ends_document {through : Document → σ → Undo → Prop}
    (h : through (AnnotationStore.document s) s undo) :
    Ends document s undo through stopped := h

/-- **What the changes of the document leave alone**: a property of the store that all but writing
keep, such as which file it is bound to. -/
structure KeptByEdits (P : σ → Prop) : Prop where
  addSpan (layer : String) (span : Span) (s : σ) :
    P s → P ((AnnotationStore.addSpan layer span).apply s).2
  addRelation (layer : String) (dependent governor : AnnotationId) (s : σ) :
    P s → P ((AnnotationStore.addRelation layer dependent governor).apply s).2
  setFeature (id : AnnotationId) (feature value : String) (s : σ) :
    P s → P ((AnnotationStore.setFeature id feature value).apply s).2
  delete (id : AnnotationId) (s : σ) : P s → P ((AnnotationStore.delete id).apply s).2

/-- A store that has just accepted a change, its document being `d` before and `d'` after. -/
structure Accepted (P : σ → Prop) (e : Edit σ α) (a : α) (d d' : Document) (s' : σ) : Prop where
  document : AnnotationStore.document s' = d'
  before : ∃ s, P s ∧ AnnotationStore.document s = d ∧ e.apply s = (.ok a, s')

/-- A store that has just refused a change, its document being `d` before and after. -/
structure Refused (P : σ → Prop) (e : Edit σ α) (cause : StoreError) (d : Document) (s' : σ) :
    Prop where
  document : AnnotationStore.document s' = d
  before : ∃ s, P s ∧ AnnotationStore.document s = d ∧ e.apply s = (.error cause, s')

variable {P : σ → Prop}

/-- What a store keeps through a change holds of a store that has just accepted it. -/
theorem Accepted.kept {e : Edit σ α} {a : α} {d d' : Document} {s' : σ}
    (hkeep : ∀ s, P s → P (e.apply s).2) (h : Accepted P e a d d' s') : P s' := by
  obtain ⟨s, hP, -, happly⟩ := h.before
  have hkept := hkeep s hP
  rw [happly] at hkept
  exact hkept

/-- **A step of the store** follows the document, or is refused. -/
theorem ends_step {name : String} {e : Edit σ α} {f : Document → Except StoreError (α × Document)}
    {d : Document} (hf : FollowsDocument e f) (hd : AnnotationStore.document s = d) (hP : P s)
    (hthrough : ∀ a d' s', f d = .ok (a, d') → Accepted P e a d d' s' → through a s' undo)
    (hstopped : ∀ cause s', Refused P e cause d s' → stopped (.persistence name cause) s' undo) :
    Ends (step name e) s undo through stopped := by
  unfold Ends
  rcases happly : e.apply s with ⟨cause | a, s'⟩
  · have hd' := (hf s s').2 cause happly
    rw [run_step_of_error happly]
    exact hstopped cause s' ⟨hd'.trans hd, s, hP, hd, happly⟩
  · have hd' := (hf s s').1 a happly
    rw [hd] at hd'
    rw [run_step_of_ok happly]
    exact hthrough a _ s' hd' ⟨rfl, s, hP, hd, happly⟩

end Attempt
end PairAnnotation
