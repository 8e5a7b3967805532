import Mathlib.Logic.Function.Basic

/-! Files under names, on a file system that may refuse any call, and rules for what the programs
on it leave behind. -/
namespace Files

inductive IoError
  | notFound
  | alreadyExists
  | other
deriving DecidableEq, Repr

/-- The content of every file that there is. -/
abbrev Disk (π β : Type) := π → Option (List β)

/-- Programs on a disk. One that fails leaves what it has done so far. -/
abbrev FileM (π β : Type) := ExceptT IoError (StateM (Disk π β))

section Calls

variable {π β : Type} [DecidableEq π]

/-- A call that changes no file. -/
def call (fault : Option IoError) : FileM π β Unit :=
  match fault with
  | some e => throw e
  | none => pure ()

def createNew (fault : Option IoError) (p : π) : FileM π β Unit := do
  call fault
  let d ← get
  if (d p).isSome then throw .alreadyExists else set (Function.update d p (some []))

/-- A write that fails has written some of the data. -/
def writeAll (fault : Option IoError) (written : Nat) (p : π) (data : List β) :
    FileM π β Unit := do
  let d ← get
  match fault with
  | some e => do
    set (Function.update d p (some (data.take written)))
    throw e
  | none => set (Function.update d p (some data))

/-- One name takes the place of the other at once. -/
def rename (fault : Option IoError) (p q : π) : FileM π β Unit := do
  call fault
  let d ← get
  match d p with
  | none => throw .notFound
  | some content => set (Function.update (Function.update d p none) q (some content))

end Calls

namespace FileM

variable {π β α γ : Type}

/-- The answer of a program and the disk it leaves. -/
def exec (x : FileM π β α) (d : Disk π β) : Except IoError α × Disk π β :=
  Id.run (StateT.run (ExceptT.run x) d)

theorem exec_bind (x : FileM π β α) (f : α → FileM π β γ) (d : Disk π β) :
    (x >>= f).exec d = match x.exec d with
      | (.ok a, d') => (f a).exec d'
      | (.error e, d') => (.error e, d') := by
  simp only [exec, ExceptT.run_bind, StateT.run_bind, Id.run_bind]
  cases Id.run (StateT.run (ExceptT.run x) d) with
  | mk answer d' => cases answer <;> rfl

/-- What holds of the answer and of the disk when the program is through. -/
def Ends (x : FileM π β α) (d : Disk π β) (P : Except IoError α → Disk π β → Prop) : Prop :=
  P (x.exec d).1 (x.exec d).2

variable {x : FileM π β α} {f : α → FileM π β γ} {d : Disk π β}
  {P : Except IoError γ → Disk π β → Prop} {fault : Option IoError} {p q : π} {data : List β}
  {written : Nat}

theorem Ends.mono {P Q : Except IoError α → Disk π β → Prop} (h : x.Ends d P)
    (hPQ : ∀ answer d', P answer d' → Q answer d') : x.Ends d Q := hPQ _ _ h

/-- The rule of composition: a failure skips the rest. -/
theorem ends_bind (h : x.Ends d fun answer d' =>
    match answer with
    | .ok a => (f a).Ends d' P
    | .error e => P (.error e) d') : (x >>= f).Ends d P := by
  unfold Ends at h ⊢
  rw [exec_bind]
  rcases hx : x.exec d with ⟨answer, d'⟩
  rw [hx] at h
  cases answer with
  | ok a => exact h
  | error e => exact h

variable {P : Except IoError Unit → Disk π β → Prop}

theorem ends_call (hok : fault = none → P (.ok ()) d)
    (herr : ∀ e, fault = some e → P (.error e) d) : (call fault).Ends d P := by
  cases fault with
  | none => exact hok rfl
  | some e => exact herr e rfl

variable [DecidableEq π]

theorem ends_createNew
    (hok : fault = none → d p = none → P (.ok ()) (Function.update d p (some [])))
    (herr : ∀ e, fault = some e ∨ d p ≠ none → P (.error e) d) : (createNew fault p).Ends d P := by
  refine ends_bind (ends_call (fun hf => ?_) fun e he => herr e (.inl he))
  refine ends_bind (P := P) (x := get) ?_
  change FileM.Ends (if (d p).isSome then throw .alreadyExists else set _) d P
  cases hp : d p with
  | none => exact hok hf hp
  | some content => exact herr _ (.inr (by simp [hp]))

theorem ends_writeAll (hok : fault = none → P (.ok ()) (Function.update d p (some data)))
    (herr : ∀ e, fault = some e → P (.error e) (Function.update d p (some (data.take written)))) :
    (writeAll fault written p data).Ends d P := by
  refine ends_bind (P := P) (x := get) ?_
  cases fault with
  | none => exact hok rfl
  | some e => exact herr e rfl

theorem ends_rename
    (hok : ∀ content, fault = none → d p = some content →
      P (.ok ()) (Function.update (Function.update d p none) q (some content)))
    (herr : ∀ e, fault = some e ∨ d p = none → P (.error e) d) : (rename fault p q).Ends d P := by
  refine ends_bind (ends_call (fun hf => ?_) fun e he => herr e (.inl he))
  refine ends_bind (P := P) (x := get) ?_
  change FileM.Ends (match d p with | none => throw .notFound | some content => set _) d P
  cases hp : d p with
  | none => exact herr _ (.inr hp)
  | some content => exact hok content hf hp

end FileM

end Files
