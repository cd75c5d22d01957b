import PrefAccessor.Text.Basic

/-!
# Faults

Settings and declarations are values of any kind until they are used. A fault is what stops an
operation that meets a value it has no rule for. Unlike a refusal, which an operation reports by a
cause of its own, a fault is not recovered: it ends the whole run.
-/

namespace PrefAccessor

set_option autoImplicit false

universe u v

inductive Fault where
  /-- A value of a kind that the operation does not take. -/
  | wrongKind
  /-- A value of a kind that lacks the operation. -/
  | missingOperation
  /-- A value of the right kind that the operation cannot use. -/
  | badValue
  /-- A position outside a sequence. -/
  | outOfBounds
  /-- A key that a map does not hold. -/
  | missingKey
  /-- Bytes that are no text. -/
  | undecodable
  /-- A text that has no encoded form. -/
  | unencodable
  /-- A count beyond the sizes that the machine can address. -/
  | tooLarge
  /-- A text that does not fit into memory. -/
  | outOfMemory
  /-- The operating system failed while a path was being looked at. -/
  | system
  /-- Generated code that does not parse. -/
  | syntaxError
  /-- Generated code whose blocks are not indented. -/
  | indentation
  /-- A module that cannot be imported. -/
  | unknownModule
  /-- Console text that closes a style which is not open. -/
  | markup
  /-- The program gives up after it has said why. -/
  | exit
  deriving DecidableEq, Repr

/-- The kind of a fault as messages name it. -/
def Fault.kindName : Fault → Text
  | .wrongKind => "TypeError"
  | .missingOperation => "AttributeError"
  | .badValue => "ValueError"
  | .outOfBounds => "IndexError"
  | .missingKey => "KeyError"
  | .undecodable => "UnicodeDecodeError"
  | .unencodable => "UnicodeEncodeError"
  | .tooLarge => "OverflowError"
  | .outOfMemory => "MemoryError"
  | .system => "OSError"
  | .syntaxError => "SyntaxError"
  | .indentation => "IndentationError"
  | .unknownModule => "ModuleNotFoundError"
  | .markup => "MarkupError"
  | .exit => "SystemExit"

/-- Why an operation has no result: it refused its input for a cause, or a fault stopped it. -/
inductive Failure (ε : Type u) where
  | refused (cause : ε)
  | fault (fault : Fault)
  deriving DecidableEq, Repr

namespace Failure

def map {ε : Type u} {δ : Type v} (f : ε → δ) : Failure ε → Failure δ
  | .refused e => .refused (f e)
  | .fault k => .fault k

end Failure

/-- An operation that may refuse or be stopped. -/
abbrev Attempt (ε : Type u) (α : Type v) := Except (Failure ε) α

namespace Attempt

variable {ε : Type u} {α : Type v}

def refuse (e : ε) : Attempt ε α := .error (.refused e)

def stop (k : Fault) : Attempt ε α := .error (.fault k)

/-- The same attempt under other words for its refusals. -/
def mapRefusal {δ : Type u} (f : ε → δ) (a : Attempt ε α) : Attempt δ α :=
  match a with
  | .ok x => .ok x
  | .error e => .error (e.map f)

/-- What the members of a list yield, one after another up to the first one that fails. -/
def collect {β : Type v} {γ : Type u} (f : γ → Attempt ε (List β)) : List γ → Attempt ε (List β)
  | [] => .ok []
  | x :: xs => do
    let found ← f x
    let rest ← collect f xs
    .ok (found ++ rest)

/-- Lifts an operation that can only be stopped. -/
def ofFaults (a : Except Fault α) : Attempt ε α :=
  match a with
  | .ok x => .ok x
  | .error k => stop k

variable {β : Type v}

theorem bind_eq_ok {a : Attempt ε α} {f : α → Attempt ε β} {y : β} :
    a >>= f = .ok y ↔ ∃ x, a = .ok x ∧ f x = .ok y := by
  cases a with
  | ok x => simp [bind, Except.bind]
  | error e => simp [bind, Except.bind]

theorem bind_eq_error {a : Attempt ε α} {f : α → Attempt ε β} {e : Failure ε} :
    a >>= f = .error e ↔ a = .error e ∨ ∃ x, a = .ok x ∧ f x = .error e := by
  cases a with
  | ok x => simp [bind, Except.bind]
  | error e => simp [bind, Except.bind]

@[simp] theorem ofFaults_eq_ok {a : Except Fault α} {x : α} :
    (ofFaults a : Attempt ε α) = .ok x ↔ a = .ok x := by
  cases a <;> simp [ofFaults, stop]

@[simp] theorem ofFaults_eq_fault {a : Except Fault α} {k : Fault} :
    (ofFaults a : Attempt ε α) = .error (.fault k) ↔ a = .error k := by
  cases a <;> simp [ofFaults, stop]

@[simp] theorem ofFaults_ne_refused {a : Except Fault α} {e : ε} :
    (ofFaults a : Attempt ε α) ≠ .error (.refused e) := by
  cases a <;> simp [ofFaults, stop]

@[simp] theorem mapRefusal_eq_ok {δ : Type u} {f : ε → δ} {a : Attempt ε α} {x : α} :
    mapRefusal f a = .ok x ↔ a = .ok x := by
  cases a <;> simp [mapRefusal]

@[simp] theorem mapRefusal_eq_fault {δ : Type u} {f : ε → δ} {a : Attempt ε α} {k : Fault} :
    mapRefusal f a = .error (.fault k) ↔ a = .error (.fault k) := by
  rcases a with (_ | _) | _ <;> simp [mapRefusal, Failure.map]

@[simp] theorem mapRefusal_eq_refused {δ : Type u} {f : ε → δ} {a : Attempt ε α} {d : δ} :
    mapRefusal f a = .error (.refused d) ↔ ∃ e, a = .error (.refused e) ∧ f e = d := by
  rcases a with (_ | _) | _ <;> simp [mapRefusal, Failure.map]

section Collect

variable {γ : Type u} {f : γ → Attempt ε (List β)}

@[simp] theorem collect_nil : collect f [] = .ok [] := rfl

theorem collect_cons_eq_ok {x : γ} {xs : List γ} {ys : List β} :
    collect f (x :: xs) = .ok ys ↔
      ∃ found rest, f x = .ok found ∧ collect f xs = .ok rest ∧ ys = found ++ rest := by
  simp only [collect, bind_eq_ok, Except.ok.injEq]
  constructor
  · rintro ⟨found, hf, rest, hrest, rfl⟩
    exact ⟨found, rest, hf, hrest, rfl⟩
  · rintro ⟨found, rest, hf, hrest, rfl⟩
    exact ⟨found, hf, rest, hrest, rfl⟩

theorem mem_collect {xs : List γ} {ys : List β} (h : collect f xs = .ok ys) {y : β} (hy : y ∈ ys) :
    ∃ x ∈ xs, ∃ found, f x = .ok found ∧ y ∈ found := by
  induction xs generalizing ys with
  | nil =>
    cases h
    cases hy
  | cons x xs ih =>
    obtain ⟨found, rest, hf, hrest, rfl⟩ := collect_cons_eq_ok.mp h
    rcases List.mem_append.mp hy with hy | hy
    · exact ⟨x, List.mem_cons_self, found, hf, hy⟩
    · obtain ⟨x', hx', hfound⟩ := ih hrest hy
      exact ⟨x', List.mem_cons_of_mem x hx', hfound⟩

theorem collect_eq_ok_of_forall {xs : List γ} (h : ∀ x ∈ xs, ∃ found, f x = .ok found) :
    ∃ ys, collect f xs = .ok ys := by
  induction xs with
  | nil => exact ⟨[], rfl⟩
  | cons x xs ih =>
    obtain ⟨found, hf⟩ := h x List.mem_cons_self
    obtain ⟨rest, hrest⟩ := ih fun x' hx' => h x' (List.mem_cons_of_mem x hx')
    exact ⟨found ++ rest, collect_cons_eq_ok.mpr ⟨found, rest, hf, hrest, rfl⟩⟩

/-- A collection fails as its first failing member does, behind members that all succeed. -/
theorem collect_eq_error {xs : List γ} {e : Failure ε} :
    collect f xs = .error e ↔
      ∃ n x found, xs[n]? = some x ∧ collect f (xs.take n) = .ok found ∧ f x = .error e := by
  induction xs with
  | nil => simp
  | cons x xs ih =>
    simp only [collect, bind_eq_error, reduceCtorEq, and_false, exists_false, or_false, ih]
    constructor
    · rintro (hx | ⟨found, hx, n, x', rest, hn, hrest, he⟩)
      · exact ⟨0, x, [], rfl, rfl, hx⟩
      · exact ⟨n + 1, x', found ++ rest, hn, collect_cons_eq_ok.mpr ⟨found, rest, hx, hrest, rfl⟩, he⟩
    · rintro ⟨n, x', found, hn, hfound, he⟩
      cases n with
      | zero =>
        cases hn
        exact Or.inl he
      | succ n =>
        obtain ⟨first, rest, hx, hrest, -⟩ := collect_cons_eq_ok.mp hfound
        exact Or.inr ⟨first, hx, n, x', rest, hn, hrest, he⟩

end Collect

end Attempt

end PrefAccessor
