import Mathlib.Data.List.Basic
import Mathlib.Logic.Function.Basic

/-! A fragment of the POSIX shell: words with expansions, assignments, tests, loops over words and
`break`. Its commands have a meaning, a text, and rules for pre- and postconditions. -/
namespace Shell

inductive Piece where
  | text (s : String)
  | var (name : String)
  | given (name : String) (p : Piece)
  | output (command : List String)
  | cat (first second : Piece)

inductive Word where
  | bare (s : String)
  | quoted (p : Piece)

inductive Test where
  | charDevice (w : Word)
  | same (first second : Word)
  | not (t : Test)

inductive Command where
  | assign (name : String) (value : Word)
  | exports (name : String) (value : Word)
  | unset (names : List String)
  | cond (test : Test) (body : Command)
  | each (name : String) (words : List Word) (body : Command)
  | leave
  | seq (first second : Command)

/-- What the commands meet: the output that a substituted command leaves, and the files. -/
structure World where
  output : List String → String
  charDevice : String → Bool
  named : charDevice "" = false

structure Env where
  value : String → Option String
  exported : String → Bool

namespace Env

def get (e : Env) (name : String) : String := (e.value name).getD ""

def set (e : Env) (name value : String) : Env :=
  { e with value := Function.update e.value name (some value) }

def exporting (e : Env) (name : String) : Env :=
  { e with exported := Function.update e.exported name true }

def drop (e : Env) (name : String) : Env where
  value := Function.update e.value name none
  exported := Function.update e.exported name false

@[simp] theorem get_set_same (e : Env) (name value : String) : (e.set name value).get name = value := by
  simp [get, set]

@[simp] theorem get_set_other {name other : String} (different : other ≠ name) (e : Env)
    (value : String) : (e.set name value).get other = e.get other := by
  simp [get, set, different]

def Same (e f : Env) (name : String) : Prop :=
  f.value name = e.value name ∧ f.exported name = e.exported name

theorem same_set {name other : String} (different : other ≠ name) (e : Env) (value : String) :
    e.Same (e.set name value) other := by
  simp [Same, set, different]

theorem Same.trans {e f g : Env} {name : String} (first : e.Same f name) (second : f.Same g name) :
    e.Same g name :=
  ⟨second.1.trans first.1, second.2.trans first.2⟩

end Env

namespace Piece

def expand (w : World) (e : Env) : Piece → String
  | text s => s
  | var name => e.get name
  | given name p => if e.get name = "" then "" else p.expand w e
  | output command => w.output command
  | cat first second => first.expand w e ++ second.expand w e

def render : Piece → String
  | text s => s
  | var name => "$" ++ name
  | given name p => "$\x7b" ++ name ++ ":+" ++ p.render ++ "\x7d"
  | output command => "$(" ++ " ".intercalate command ++ ")"
  | cat first second => first.render ++ second.render

end Piece

namespace Word

def expand (w : World) (e : Env) : Word → String
  | bare s => s
  | quoted p => p.expand w e

def render : Word → String
  | bare s => s
  | quoted p => "\"" ++ p.render ++ "\""

end Word

namespace Test

def holds (w : World) (e : Env) : Test → Bool
  | charDevice v => w.charDevice (v.expand w e)
  | same first second => first.expand w e = second.expand w e
  | not t => !t.holds w e

def inner : Test → String
  | charDevice v => "-c " ++ v.render
  | same first second => first.render ++ " = " ++ second.render
  | not t => "! " ++ t.inner

def render (t : Test) : String := "[ " ++ t.inner ++ " ]"

end Test

namespace Command

/-- The rounds of a loop, until its body breaks out. -/
def rounds (name : String) (body : Env → Env × Bool) : List String → Env → Env
  | [], e => e
  | value :: rest, e =>
    match body (e.set name value) with
    | (f, true) => f
    | (f, false) => rounds name body rest f

/-- The environment after a command, and whether it leaves the loop around it. A loop expands its
words before its first round. -/
def exec (w : World) : Command → Env → Env × Bool
  | assign name value, e => (e.set name (value.expand w e), false)
  | exports name value, e => ((e.set name (value.expand w e)).exporting name, false)
  | unset names, e => (names.foldl Env.drop e, false)
  | cond test body, e => if test.holds w e then body.exec w e else (e, false)
  | each name words body, e => (rounds name (body.exec w) (words.map (·.expand w e)) e, false)
  | leave, e => (e, true)
  | seq first second, e =>
    match first.exec w e with
    | (f, true) => (f, true)
    | (f, false) => second.exec w f

def line : Command → String
  | assign name value => name ++ "=" ++ value.render
  | exports name value => "export " ++ name ++ "=" ++ value.render
  | unset names => "unset " ++ " ".intercalate names
  | cond test body => "if " ++ test.render ++ "; then " ++ body.line ++ "; fi"
  | each name words body =>
    "for " ++ name ++ " in " ++ " ".intercalate (words.map Word.render) ++ "; do " ++ body.line ++
      "; done"
  | leave => "break"
  | seq first second => first.line ++ "; " ++ second.line

/-- The text with a line for each command, loop bodies indented. -/
def render (indent : String) : Command → String
  | each name words body =>
    indent ++ "for " ++ name ++ " in " ++ " ".intercalate (words.map Word.render) ++ "; do\n" ++
      body.render (indent ++ "    ") ++ indent ++ "done\n"
  | seq first second => first.render indent ++ second.render indent
  | c => indent ++ c.line ++ "\n"

/-- From `P` a command leads to `Q`, or out of the loop around it with `B`. -/
def Triple (w : World) (P : Env → Prop) (c : Command) (Q B : Env → Prop) : Prop :=
  ∀ e, P e → if (c.exec w e).2 then B (c.exec w e).1 else Q (c.exec w e).1

variable {w : World} {P Q R B : Env → Prop}

theorem triple_assign {name : String} {value : Word} :
    Triple w (fun e => Q (e.set name (value.expand w e))) (assign name value) Q B :=
  fun _ holds => holds

theorem triple_exports {name : String} {value : Word} :
    Triple w (fun e => Q ((e.set name (value.expand w e)).exporting name)) (exports name value) Q
      B :=
  fun _ holds => holds

theorem triple_unset {names : List String} :
    Triple w (fun e => Q (names.foldl Env.drop e)) (unset names) Q B :=
  fun _ holds => holds

theorem triple_leave : Triple w B leave Q B := fun _ holds => holds

theorem triple_seq {first second : Command} (one : Triple w P first Q B)
    (two : Triple w Q second R B) : Triple w P (seq first second) R B := by
  intro e holds
  have middle := one e holds
  obtain ⟨f, broke, left⟩ : ∃ f broke, first.exec w e = (f, broke) := ⟨_, _, rfl⟩
  rw [left] at middle
  cases broke with
  | true => simpa only [exec, left, if_true] using middle
  | false => simpa only [exec, left] using two f middle

theorem triple_cond {test : Test} {body : Command}
    (taken : Triple w (fun e => P e ∧ test.holds w e = true) body Q B)
    (skipped : ∀ e, P e → test.holds w e = false → Q e) : Triple w P (cond test body) Q B := by
  intro e holds
  simp only [exec]
  split
  next true_ => exact taken e ⟨holds, true_⟩
  next false_ => exact skipped e holds (Bool.eq_false_iff.mpr false_)

theorem Triple.weaken {P' Q' : Env → Prop} {c : Command} (triple : Triple w P c Q B)
    (before : ∀ e, P' e → P e) (after : ∀ e, Q e → Q' e) : Triple w P' c Q' B := by
  intro e holds
  have result := triple e (before e holds)
  split
  next broke => rwa [if_pos broke] at result
  next stayed => rw [if_neg stayed] at result; exact after _ result

/-- The loop rule: an invariant that knows the words done, kept by each round that does not break
out; what a round that breaks out leaves must do for the whole loop. -/
theorem triple_each {name : String} {words : List Word} {body : Command}
    (I : List String → Env → Prop) (values : List String)
    (expanded : ∀ e, P e → words.map (·.expand w e) = values) (start : ∀ e, P e → I [] e)
    (round : ∀ done value later, values = done ++ value :: later →
      Triple w (fun e => ∃ f, I done f ∧ e = f.set name value) body (I (done ++ [value])) Q)
    (stop : ∀ e, I values e → Q e) : Triple w P (each name words body) Q B := by
  have loop : ∀ done rest e, values = done ++ rest → I done e →
      Q (rounds name (body.exec w) rest e) := by
    intro done rest
    induction rest generalizing done with
    | nil =>
      rintro e rfl invariant
      rw [List.append_nil] at stop
      exact stop e invariant
    | cons value rest ih =>
      intro e split invariant
      have result := round done value rest split (e.set name value) ⟨e, invariant, rfl⟩
      simp only [rounds]
      cases left : body.exec w (e.set name value) with
      | mk f broke =>
        rw [left] at result
        cases broke with
        | true => exact result
        | false => exact ih (done ++ [value]) f (by simp [split]) result
  intro e holds
  simp only [exec, expanded e holds]
  exact loop [] values e rfl (start e holds)

end Command

end Shell
