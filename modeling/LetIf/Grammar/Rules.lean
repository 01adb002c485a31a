import LetIf.Grammar.Reading
import LetIf.Program

/-!
# Grammar rules

    program     → (NEWLINE binding)*
    binding     → 'let' NAME NAME* '=' expression
    expression  → 'if' branches | NAME | NUM | BOOL
    branches    → expression 'then' expression 'else' expression

One function reads each rule. The next terminal alone decides how to go on, so
a terminal once read is never given back, and reading stops at the first
terminal that cannot go on. Every rule leaves a suffix of what it is given.
-/

namespace LetIf.Grammar

def terminal (expected : Expected) (ts : List Terminal) : Reading Terminal :=
  match ts with
  | [] => .refuse (.unexpectedToken expected (describeNext [])) []
  | t :: rest =>
    if expected.admits t then .done t rest
    else .refuse (.unexpectedToken expected t.describe) (t :: rest)

theorem suffix_terminal (expected : Expected) (ts : List Terminal) :
    (terminal expected ts).rest <:+ ts := by
  unfold terminal
  split
  · exact List.suffix_refl []
  · split
    · exact List.suffix_cons _ _
    · exact List.suffix_refl _

/-- Reads a terminal that is an expression by itself. A literal is read before
its spelling is looked at. -/
def leaf (t : Terminal) (rest : List Terminal) : Reading Expr :=
  match t.kind with
  | .name => (Reading.done (.name t.text) rest).note (.name t.text)
  | .number =>
    match Numeral.read? t.text with
    | some n => .done (.num n) rest
    | none => .reject (.malformedNumber t.text) rest
  | .boolean =>
    match t.bool? with
    | some b => .done (.bool b) rest
    | none => .reject (.malformedBoolean t.text) rest
  | _ => .refuse (.unrecognisedExpression t.describe) (t :: rest)

theorem suffix_leaf (t : Terminal) (rest : List Terminal) :
    (leaf t rest).rest <:+ t :: rest := by
  fun_cases leaf t rest <;>
    simp [Reading.done, Reading.note, Reading.reject, Reading.refuse]

mutual
def expressionOf (ts : List Terminal) : Reading.Of ts Expr :=
  match ts with
  | [] => ⟨.refuse (.unrecognisedExpression (describeNext [])) [], List.suffix_refl []⟩
  | t :: rest =>
    if t.is .keyword "if" then
      let r := branchesOf rest
      ⟨r.1, r.2.trans (List.suffix_cons t rest)⟩
    else ⟨leaf t rest, suffix_leaf t rest⟩
termination_by 2 * ts.length

def branchesOf (ts : List Terminal) : Reading.Of ts Expr :=
  let r := (expressionOf ts).andThen fun condition us _ =>
    Reading.Of.andThen ⟨_, suffix_terminal (.spelled .keyword "then") us⟩ fun _ vs _ =>
    (expressionOf vs).andThen fun yes ws _ =>
    Reading.Of.andThen ⟨_, suffix_terminal (.spelled .keyword "else") ws⟩ fun _ xs _ =>
    let r := expressionOf xs
    ⟨r.1.map (.ite condition yes), r.2⟩
  ⟨r.1.note .conditional, r.2⟩
termination_by 2 * ts.length + 1
decreasing_by all_goals grind [List.IsSuffix.length_le]
end

/-- expression → 'if' branches | NAME | NUM | BOOL -/
def expression (ts : List Terminal) : Reading Expr := (expressionOf ts).val

/-- branches → expression 'then' expression 'else' expression -/
def branches (ts : List Terminal) : Reading Expr := (branchesOf ts).val

theorem suffix_expression (ts : List Terminal) : (expression ts).rest <:+ ts :=
  (expressionOf ts).property

theorem expression_nil :
    expression [] = .refuse (.unrecognisedExpression (describeNext [])) [] := by
  rw [expression, expressionOf]

theorem expression_cons (t : Terminal) (rest : List Terminal) :
    expression (t :: rest) = if t.is .keyword "if" then branches rest else leaf t rest := by
  rw [expression, expressionOf, branches]
  split <;> rfl

theorem branches_eq (ts : List Terminal) :
    branches ts = Reading.note .conditional
      ((expression ts).andThen fun condition us =>
        (terminal (.spelled .keyword "then") us).andThen fun _ vs =>
        (expression vs).andThen fun yes ws =>
        (terminal (.spelled .keyword "else") ws).andThen fun _ xs =>
        (expression xs).map (.ite condition yes)) := by
  rw [branches, branchesOf]
  refine congrArg (Reading.note .conditional) ?_
  refine Reading.Of.val_andThen _ _ _ fun condition us _ => ?_
  refine Reading.Of.val_andThen _ _ _ fun _ vs _ => ?_
  refine Reading.Of.val_andThen _ _ _ fun yes ws _ => ?_
  exact Reading.Of.val_andThen _ _ _ fun _ xs _ => rfl

def names (ts : List Terminal) : Reading (List String) :=
  .done ((ts.takeWhile (·.kind = .name)).map Terminal.text) (ts.dropWhile (·.kind = .name))

theorem suffix_names (ts : List Terminal) : (names ts).rest <:+ ts :=
  List.dropWhile_suffix _

/-- binding → 'let' NAME NAME* '=' expression -/
def binding (ts : List Terminal) : Reading Binding :=
  (terminal (.spelled .keyword "let") ts).andThen fun _ us =>
  (terminal (.kind .name) us).andThen fun name vs =>
  Reading.note (.binding name.text) <|
  (names vs).andThen fun args ws =>
  (terminal (.spelled .symbol "=") ws).andThen fun _ xs =>
  (expression xs).map (.mk name.text args)

theorem suffix_binding (ts : List Terminal) : (binding ts).rest <:+ ts := by
  refine Reading.suffix_andThen (suffix_terminal _ ts) fun _ us => ?_
  refine Reading.suffix_andThen (suffix_terminal _ us) fun _ vs => ?_
  refine Reading.suffix_andThen (suffix_names vs) fun _ ws => ?_
  exact Reading.suffix_andThen (suffix_terminal _ ws) fun _ xs => suffix_expression xs

/-- bindings → (NEWLINE binding)*, up to the first terminal that opens no row -/
def bindings (ts : List Terminal) : Reading (List Binding) :=
  match ts with
  | [] => .done [] []
  | t :: rest =>
    if t.kind = .newline then
      let r := binding rest
      r.andThen fun first _ => (bindings r.rest).map (first :: ·)
    else .done [] (t :: rest)
termination_by ts.length
decreasing_by exact Nat.lt_succ_of_le (suffix_binding rest).length_le

def program (ts : List Terminal) : Reading Program :=
  (bindings ts).map .mk

def whole (ts : List Terminal) : Reading Program :=
  (program ts).andThen fun p rest =>
  match rest with
  | [] => (Reading.done p []).note (.parsed p.bindings.length)
  | t :: rest => .refuse (.unexpectedToken (.kind .eof) t.describe) (t :: rest)

end LetIf.Grammar
