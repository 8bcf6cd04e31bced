import Facade.Translation.Document

/-!
# Translating one document after the other

A session carries out noted computations one after the other and keeps what all of them noted. The
session is only where the notes are collected: a computation does not see what is there already, so
documents that are translated in one session get the facades that they would get alone.
-/

set_option autoImplicit false

namespace Facade

/-- What was noted so far. -/
structure Session where
  warnings : List Warning

namespace Session

/-- A session in which nothing was noted. -/
def fresh : Session := ⟨[]⟩

variable {α β : Type}

/-- Carries out a computation: its value, and the session behind it. -/
def carryOut (session : Session) (noted : Noted α) : α × Session :=
  (noted.value, ⟨session.warnings ++ noted.warnings⟩)

/-- Translates a document under an output path. -/
def translate (session : Session) (document : Document) (path : DottedName) :
    Package × Session :=
  session.carryOut (document.toPackage path)

/-- Translates documents in order. Each facade comes with the session behind it. -/
def translateAll (session : Session) : List (Document × DottedName) → List (Package × Session)
  | [] => []
  | (document, path) :: rest =>
    let (facade, session) := session.translate document path
    (facade, session) :: session.translateAll rest

/-- To carry out one computation and then another is to carry out both as one. -/
theorem carryOut_bind (session : Session) (first : Noted α) (next : α → Noted β) :
    session.carryOut (first >>= next)
      = (session.carryOut first).2.carryOut (next (session.carryOut first).1) := by
  simp [carryOut]

end Session

end Facade
