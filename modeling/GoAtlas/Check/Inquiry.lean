import GoAtlas.Check.Report

/-!
# Inquiries

A check may ask for packages while it runs. An inquiry is the course of such a check, for any
answers: it either has a result or makes a request and goes on with what it is told.
Every run of an inquiry asks finitely often.
-/

namespace GoAtlas

abbrev Answer := Except Error Package

/-- An import path, and the directory of the package that imports it. -/
structure Request where
  path : String
  dir : Path
  deriving Repr

inductive Inquiry (ρ α : Type) where
  | done (result : α)
  | ask (request : ρ) (next : Answer -> Inquiry ρ α)

namespace Inquiry

variable {ρ ρ' α β : Type}

def andThen (i : Inquiry ρ α) (f : α -> Inquiry ρ β) : Inquiry ρ β :=
  match i with
  | done a => f a
  | ask request next => ask request fun answer => (next answer).andThen f

instance : Monad (Inquiry ρ) where
  pure := done
  bind := andThen

def request (r : ρ) : Inquiry ρ Answer :=
  ask r done

def mapRequests (f : ρ -> ρ') : Inquiry ρ α -> Inquiry ρ' α
  | done a => done a
  | ask request next => ask (f request) fun answer => (next answer).mapRequests f

def run {σ : Type} (importer : ρ -> σ -> Answer × σ) : Inquiry ρ α -> σ -> α × σ
  | done a, s => (a, s)
  | ask request next, s =>
      let (answer, s) := importer request s
      (next answer).run importer s

end Inquiry

/-- A checker looks at the sources of a package and asks for the packages it depends on.
Faults of the sources are part of the outcome. -/
abbrev Checker := LoadedPackage -> Inquiry Request CheckOutcome

end GoAtlas
