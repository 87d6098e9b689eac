import Mathlib.Data.List.TakeWhile

/-! Command lines of long options, read as the documentation of `QCommandLineParser` has it. A word
that starts with two dashes is an option, with its value behind an equals sign or in the next
word, whatever that word starts with; two dashes alone end the options. Unknown options, values
that are missing and values of options that take none are errors. What a program is given for a
list of options is read back as that list. -/
namespace CommandLine

inductive Item where
  | option (name : String) (value : Option String)
  | positional (word : String)
  deriving DecidableEq, Repr

/-- Whether an option of that name takes a value, if there is one. -/
abbrev Options : Type := String → Option Bool

inductive Word where
  | ends
  | long (name : String) (attached : Option String)
  | short
  | plain
  deriving DecidableEq, Repr

def attached : List Char → Option String
  | [] => none
  | _ :: value => some (String.ofList value)

def classify : List Char → Word
  | ['-', '-'] => .ends
  | '-' :: '-' :: body =>
    .long (String.ofList (body.takeWhile (· ≠ '='))) (attached (body.dropWhile (· ≠ '=')))
  | '-' :: _ :: _ => .short
  | _ => .plain

/-- Without a result the line is refused, which includes every word of short options. -/
def parse (options : Options) : List String → Option (List Item)
  | [] => some []
  | word :: rest =>
    match classify word.toList with
    | .ends => some (rest.map .positional)
    | .plain => (parse options rest).map (.positional word :: ·)
    | .short => none
    | .long name value =>
      match options name, value, rest with
      | some false, none, rest => (parse options rest).map (.option name none :: ·)
      | some true, some value, rest => (parse options rest).map (.option name (some value) :: ·)
      | some true, none, value :: rest =>
        (parse options rest).map (.option name (some value) :: ·)
      | _, _, _ => none

/-- The words of an option, its value in a word of its own. -/
def Item.words : Item → List String
  | option name none => ["--" ++ name]
  | option name (some value) => ["--" ++ name, value]
  | positional word => [word]

def render (items : List Item) : List String := items.flatMap Item.words

/-- An option that can be written in that form. The values are arbitrary. -/
def Item.Known (options : Options) : Item → Prop
  | option name value =>
    options name = some value.isSome ∧ name.toList ≠ [] ∧ '=' ∉ name.toList
  | positional _ => False

instance (options : Options) (item : Item) : Decidable (item.Known options) := by
  cases item <;> unfold Item.Known <;> infer_instance

theorem classify_long {name : List Char} (nonempty : name ≠ []) (plain : '=' ∉ name) :
    classify ('-' :: '-' :: name) = .long (String.ofList name) none := by
  have other : ∀ c ∈ name, decide (c ≠ '=') = true := fun c member =>
    decide_eq_true fun same => plain (same ▸ member)
  have whole : name.takeWhile (· ≠ '=') = name := List.takeWhile_eq_self_iff.mpr other
  have nothing : name.dropWhile (· ≠ '=') = [] := List.dropWhile_eq_nil_iff.mpr other
  cases name with
  | nil => contradiction
  | cons c rest =>
    simp only [classify, whole, nothing, attached]

theorem parse_option (options : Options) {name : String} {value : Option String}
    (known : (Item.option name value).Known options) (rest : List String) :
    parse options ((Item.option name value).words ++ rest) =
      (parse options rest).map (.option name value :: ·) := by
  obtain ⟨takes, nonempty, plain⟩ := known
  have word : classify ("--" ++ name).toList = .long name none := by
    have spelled : ("--" ++ name).toList = '-' :: '-' :: name.toList := by simp
    rw [spelled, classify_long nonempty plain, String.ofList_toList]
  cases value with
  | none =>
    simp only [Item.words, List.singleton_append, parse, word, takes, Option.isSome_none]
  | some value =>
    simp only [Item.words, List.cons_append, List.nil_append, parse, word, takes, Option.isSome_some]

theorem parse_render (options : Options) {items : List Item}
    (known : ∀ item ∈ items, item.Known options) : parse options (render items) = some items := by
  induction items with
  | nil => rfl
  | cons item rest ih =>
    obtain ⟨here, there⟩ := List.forall_mem_cons.mp known
    cases item with
    | option name value =>
      rw [render, List.flatMap_cons, parse_option options here]
      exact congrArg (Option.map _) (ih there)
    | positional word => exact here.elim

/-- `QCommandLineParser::values` of an option, in order. -/
def values (name : String) (items : List Item) : List String :=
  items.filterMap fun
    | .option other (some value) => if other = name then some value else none
    | _ => none

@[simp] theorem values_append (name : String) (first rest : List Item) :
    values name (first ++ rest) = values name first ++ values name rest := List.filterMap_append

@[simp] theorem values_nil (name : String) : values name [] = [] := rfl

@[simp] theorem values_valued (name other value : String) (rest : List Item) :
    values name (.option other (some value) :: rest) =
      if other = name then value :: values name rest else values name rest := by
  unfold values
  split <;> simp_all

@[simp] theorem values_flag (name other : String) (rest : List Item) :
    values name (.option other none :: rest) = values name rest := rfl

/-- `QCommandLineParser::value`: the last value of an option, or its default. -/
def value (name : String) (missing : String) (items : List Item) : String :=
  (values name items).getLast?.getD missing

def isSet (name : String) (items : List Item) : Bool :=
  items.any fun
    | .option other _ => other = name
    | .positional _ => false

end CommandLine
