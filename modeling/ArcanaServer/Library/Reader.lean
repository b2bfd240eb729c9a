import Mathlib.Data.List.TakeDrop
import Mathlib.Data.List.TakeWhile

namespace ArcanaServer.Library

/-! Readers take a value from the front of a text.  One that fails takes
nothing. -/

abbrev Reader (α : Type) := StateT (List Char) Option α

namespace Reader

variable {α β : Type}

def given (char : Char) : Reader Unit := fun text =>
  match text with
  | [] => none
  | first :: rest => if first = char then some ((), rest) else none

def stretch (kind : Char → Bool) : Reader (List Char) := fun text =>
  some (text.takeWhile kind, text.dropWhile kind)

def whole (reader : Reader α) (text : List Char) : Option α :=
  match reader.run text with
  | some (value, []) => some value
  | _ => none

theorem whole_eq_some {reader : Reader α} {text : List Char} {value : α} :
    reader.whole text = some value ↔ reader.run text = some (value, []) := by
  unfold whole
  cases reader.run text with
  | none => simp
  | some result =>
      obtain ⟨read, rest⟩ := result
      cases rest with
      | nil | cons char rest => simp

theorem whole_orElse {reader other : Reader α} {text : List Char}
    (fails : reader.run text = none) :
    Reader.whole (reader <|> other) text = other.whole text := by
  have same : (reader <|> other).run text = other.run text := by
    change (reader.run text <|> other.run text) = other.run text
    rw [fails]
    rfl
  rw [whole, same]
  rfl

section

variable {reader : Reader α} {next : α → Reader β} {text rest : List Char}

theorem run_bind : (reader >>= next).run text =
      (reader.run text).bind (fun read => (next read.1).run read.2) :=
  rfl

@[simp] theorem run_pure {value : α} :
    (pure value : Reader α).run text = some (value, text) :=
  rfl

theorem run_orElse {other : Reader α} :
    (reader <|> other).run text = (reader.run text <|> other.run text) :=
  rfl

theorem run_bind_eq_some {result : β} :
    (reader >>= next).run text = some (result, rest) ↔
      ∃ value middle, reader.run text = some (value, middle) ∧
        (next value).run middle = some (result, rest) := by
  rw [run_bind]
  cases reader.run text with
  | none => simp
  | some read =>
      obtain ⟨value, middle⟩ := read
      simp

theorem run_given {char : Char} :
    (given char).run text = some ((), rest) ↔ text = char :: rest := by
  cases text with
  | nil => simp [given, StateT.run]
  | cons first left =>
      simp only [given, StateT.run, List.cons.injEq]
      split
      next same => simp [same]
      next differs => simp [differs]

end

/-- What follows the character makes no difference to the reader. -/
def StopsAt (stop : Char) (reader : Reader α) : Prop :=
  ∀ text rest, reader.run (text ++ stop :: rest) =
    (reader.run text).map (fun read => (read.1, read.2 ++ stop :: rest))

namespace StopsAt

variable {stop : Char} {reader other : Reader α}

protected theorem pure (value : α) : StopsAt stop (pure value : Reader α) :=
  fun _ _ => rfl

protected theorem failure : StopsAt stop (failure : Reader α) :=
  fun _ _ => rfl

theorem bind {next : α → Reader β} (first : StopsAt stop reader)
    (second : ∀ value, StopsAt stop (next value)) :
    StopsAt stop (reader >>= next) := by
  intro text rest
  rw [run_bind, run_bind, first text rest]
  cases reader.run text with
  | none => rfl
  | some read => exact second read.1 read.2 rest

theorem orElse (first : StopsAt stop reader) (second : StopsAt stop other) :
    StopsAt stop (reader <|> other) := by
  intro text rest
  rw [run_orElse, run_orElse, first text rest, second text rest]
  cases reader.run text with
  | none | some read => rfl

theorem ite {condition : Prop} [Decidable condition]
    (positive : condition → StopsAt stop reader)
    (negative : ¬condition → StopsAt stop other) :
    StopsAt stop (if condition then reader else other) := by
  split
  next holds => exact positive holds
  next fails => exact negative fails

protected theorem given {char : Char} (differs : stop ≠ char) :
    StopsAt stop (given char) := by
  intro text rest
  cases text with
  | nil => simp [given, StateT.run, differs]
  | cons first left =>
      simp only [given, StateT.run, List.cons_append]
      split <;> rfl

protected theorem stretch {kind : Char → Bool} (differs : kind stop = false) :
    StopsAt stop (stretch kind) := by
  intro text rest
  simp only [stretch, StateT.run, Option.map_some, Option.some.injEq,
    Prod.mk.injEq]
  induction text with
  | nil => simp [differs]
  | cons first left ih =>
      cases same : kind first with
      | false => simp [same]
      | true => simpa [same] using ih

theorem run_stop (stops : StopsAt stop reader) {rest : List Char}
    (needs : reader.run [] = none) : reader.run (stop :: rest) = none := by
  have front := stops [] rest
  rwa [needs] at front

theorem not_mem (stops : StopsAt stop reader) {text : List Char} {value : α}
    (read : reader.whole text = some value) : stop ∉ text := by
  intro member
  obtain ⟨before, after, rfl⟩ := List.append_of_mem member
  have taken := whole_eq_some.mp read
  rw [stops before after] at taken
  cases run : reader.run before with
  | none | some pair => simp [run] at taken

theorem run_whole (stops : StopsAt stop reader) (rest : List Char)
    {text : List Char} {value : α} (read : reader.whole text = some value) :
    reader.run (text ++ stop :: rest) = some (value, stop :: rest) := by
  rw [stops text rest, whole_eq_some.mp read]
  rfl

end StopsAt

def TakesAtLeast (char : Char) (count : α → Nat) (reader : Reader α) : Prop :=
  ∀ text value rest, reader.run text = some (value, rest) →
    count value + rest.count char ≤ text.count char

namespace TakesAtLeast

variable {char : Char} {reader other : Reader α} {count : α → Nat}

protected theorem pure {value : α} (nothing : count value = 0) :
    TakesAtLeast char count (pure value : Reader α) := by
  intro text read rest run
  obtain ⟨rfl, rfl⟩ : value = read ∧ text = rest := by simpa using run
  omega

protected theorem failure :
    TakesAtLeast char count (failure : Reader α) := by
  intro text read rest run
  cases run

theorem bind {next : α → Reader β} {total : β → Nat}
    (first : TakesAtLeast char count reader) (second : ∀ value,
      TakesAtLeast char (fun result => total result - count value)
        (next value)) :
    TakesAtLeast char total (reader >>= next) := by
  intro text result rest run
  obtain ⟨value, middle, read, later⟩ := run_bind_eq_some.mp run
  have before := first _ _ _ read
  have after : total result - count value + rest.count char ≤
      middle.count char := second value _ _ _ later
  omega

theorem orElse (first : TakesAtLeast char count reader)
    (second : TakesAtLeast char count other) :
    TakesAtLeast char count (reader <|> other) := by
  intro text value rest run
  rw [run_orElse] at run
  cases read : reader.run text with
  | none =>
      apply second
      simpa [read] using run
  | some pair =>
      apply first
      simpa [read] using run

theorem ite {condition : Prop} [Decidable condition]
    (positive : condition → TakesAtLeast char count reader)
    (negative : ¬condition → TakesAtLeast char count other) :
    TakesAtLeast char count (if condition then reader else other) := by
  split
  next holds => exact positive holds
  next fails => exact negative fails

protected theorem given : TakesAtLeast char (fun _ => 1) (given char) := by
  intro text value rest run
  rw [run_given.mp run, List.count_cons_self, Nat.add_comm]

protected theorem given_other {taken : Char} :
    TakesAtLeast char (fun _ => 0) (given taken) := by
  intro text value rest run
  rw [run_given.mp run, Nat.zero_add]
  exact List.count_le_count_cons

protected theorem stretch (kind : Char → Bool) :
    TakesAtLeast char (fun _ => 0) (stretch kind) := by
  intro text value rest run
  obtain ⟨_, rfl⟩ : text.takeWhile kind = value ∧
      text.dropWhile kind = rest := by simpa [stretch, StateT.run] using run
  rw [Nat.zero_add]
  exact (List.dropWhile_sublist kind).count_le char

theorem mono {less : α → Nat} (takes : TakesAtLeast char count reader)
    (fewer : ∀ value, less value ≤ count value) :
    TakesAtLeast char less reader := by
  intro text value rest run
  have taken := takes _ _ _ run
  have bound := fewer value
  omega

end TakesAtLeast

end Reader

end ArcanaServer.Library
