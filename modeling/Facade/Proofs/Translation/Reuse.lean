import Facade.Proofs.Translation.Recording

/-!
# A session and its documents

Documents that are translated in one session do not see each other. `translateAll_alone` says so of
any number of them: the facades are those that fresh sessions give, names that are made up included,
and behind each document the session has what it had before, with what a fresh session would have
noted. It says this of a translation that hands the session through all of its steps, which is the
same as to carry out one document after the other.
-/

set_option autoImplicit false

namespace Facade

namespace Session

/-- What the warnings of a fresh session are behind a document. -/
def noted (request : Document × DottedName) : List Warning :=
  (fresh.translate request.1 request.2).2.warnings

variable (session : Session)

/-- One step: the facade does not depend on the session, and the notes of the document follow those
that are there. -/
theorem translateAll_cons (request : Document × DottedName)
    (rest : List (Document × DottedName)) :
    session.translateAll (request :: rest)
      = ((fresh.translate request.1 request.2).1, ⟨session.warnings ++ noted request⟩)
        :: (⟨session.warnings ++ noted request⟩ : Session).translateAll rest := rfl

/-- A translation that hands the session through every step of every document does what the session
does. -/
theorem recording_translateAll (requests : List (Document × DottedName)) :
    Recording.translateAll requests session = session.translateAll requests := by
  induction requests generalizing session with
  | nil => rfl
  | cons request rest ih =>
    obtain ⟨document, path⟩ := request
    rw [Recording.translateAll, Recording.run_document]
    exact congrArg (_ :: ·) (ih _)

/-- Documents that are translated one after the other, with one session that goes through every step
of every document, get the facades that they would get alone, and behind each of them the session
has the warnings that it had before, followed by those that a fresh session has behind the
document. -/
theorem translateAll_alone (requests : List (Document × DottedName)) :
    let steps := Recording.translateAll requests session
    steps = session.translateAll requests
      ∧ steps.map Prod.fst
        = requests.map (fun request => ((Recording.document request.1 request.2).run fresh).1)
      ∧ session.warnings :: steps.map (fun step => step.2.warnings)
        = (requests.map fun request =>
            ((Recording.document request.1 request.2).run fresh).2.warnings).scanl (· ++ ·)
          session.warnings := by
  intro steps
  have hsteps : steps = session.translateAll requests := session.recording_translateAll requests
  refine ⟨hsteps, ?_⟩
  simp only [hsteps, Recording.run_document]
  clear hsteps steps
  induction requests generalizing session with
  | nil => exact ⟨rfl, rfl⟩
  | cons request rest ih =>
    obtain ⟨hfacades, hwarnings⟩ := ih ⟨session.warnings ++ noted request⟩
    rw [translateAll_cons]
    constructor
    · rw [List.map_cons, List.map_cons, hfacades]
    · rw [List.map_cons, List.map_cons, List.scanl_cons]
      exact congrArg (session.warnings :: ·) hwarnings

end Session

end Facade
