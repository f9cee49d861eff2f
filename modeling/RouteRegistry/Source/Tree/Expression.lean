/-
RouteRegistry/Source/Tree/Expression.lean

Reading expressions and annotations.

What a tree tells apart is read as such: literals, class literals, parentheses,
binary operators by their precedence, arrays and annotations.  All other forms
become `Expr.other` with their tokens.  `readWhole` reads what stands between
two commas or brackets, and takes even a form that it does not know as a whole.
The functions call each other and are bounded by `fuel`.
-/
import RouteRegistry.Source.Tree
import RouteRegistry.Source.Tree.Extent

namespace RouteRegistry.Source

/-! ### Operators -/

/-- How tightly a binary operator binds. -/
def precedence? (operator : String) : Option Nat :=
  if operator = "||" then some 1
  else if operator = "&&" then some 2
  else if operator = "|" then some 3
  else if operator = "^" then some 4
  else if operator = "&" then some 5
  else if ["==", "!="].contains operator then some 6
  else if ["<", ">", "<=", ">=", "instanceof"].contains operator then some 7
  else if ["<<", ">>", ">>>"].contains operator then some 8
  else if ["+", "-"].contains operator then some 9
  else if ["*", "/", "%"].contains operator then some 10
  else none

/-- Reads the tokens that directly follow a closing angle bracket as parts of one operator. -/
def angleOperator : List Token → List Token × List Token
  | [] => ([], [])
  | t :: ts =>
    if t.gap = [] ∧ t.isOneOf [">", "=", "=="] then
      let r := angleOperator ts
      (t :: r.1, r.2)
    else ([], t :: ts)

/-- Reads an operator of one or more tokens. -/
def operator? : List Token → Option (List Token × List Token)
  | [] => none
  | t :: ts =>
    if t.is ">" then some (t :: (angleOperator ts).1, (angleOperator ts).2)
    else some ([t], ts)

/-- The operator as it is written, its tokens put together. -/
def operatorText (ts : List Token) : String := String.join (ts.map Token.text)

/-- The operators by which an expression assigns. -/
def assignments : List String :=
  ["=", "+=", "-=", "*=", "/=", "%=", "&=", "|=", "^=", "<<=", ">>=", ">>>="]

/-- Whether an operand that no operator joins to what is before it can begin here, so that a
parenthesis before it is a cast. -/
def startsOperand (ts : List Token) : Bool :=
  ts.head?.any fun t =>
    (t.isWord && !t.is "instanceof") || t.isString || t.isPlainLiteral || t.isOneOf ["(", "!", "~"]

/-- Whether the parenthesis that holds `inside`, its closing bracket included, is a cast in front of
`rest`.  A mere name is one where a plus or a minus would be binary, but not where `++` or `--` has
an operand behind it. -/
def isCast (inside rest : List Token) : Bool :=
  let twice := rest.head?.any (Token.isOneOf ["++", "--"])
  match castKind? inside.length inside with
  | none => false
  | some .ambiguous => startsOperand rest || (twice && startsOperand (rest.drop 1))
  | some .certain => startsOperand rest || twice || rest.head?.any (Token.isOneOf ["+", "-"])

/-! ### Expressions -/

mutual

/-- Reads the value of an argument: an array, an annotation or an expression. -/
def readElement : (fuel : Nat) → List Token → Option (Expr × List Token)
  | 0, _ => none
  | _ + 1, [] => none
  | fuel + 1, t :: ts =>
    if t.is "\x7b" then
      match readItems fuel false ts with
      | (items, closing :: rest) =>
        if closing.is "\x7d" then some (.array t items closing, rest) else none
      | (_, []) => none
    else
      match if t.is "@" then readAnnotationNode fuel (t :: ts) else none with
      | some (a, rest) =>
        if isEnd rest then some (.annotated a, rest) else readWhole fuel (t :: ts)
      | none => readWhole fuel (t :: ts)

/-- Reads an expression up to the comma or bracket that ends it. -/
def readWhole : (fuel : Nat) → List Token → Option (Expr × List Token)
  | 0, _ => none
  | fuel + 1, ts =>
    let whole :=
      match readExpr fuel ts with
      | some (e, rest) => if isEnd rest then some (e, rest) else none
      | none => none
    match whole with
    | some r => some r
    | none =>
      match upToEnd ts.length ts with
      | ([], _) => none
      | (form, rest) => some (.other form, rest)

/-- Reads items as long as there are some; `keyed` ones may have keys. -/
def readItems : (fuel : Nat) → (keyed : Bool) → List Token → List Item × List Token
  | 0, _, ts => ([], ts)
  | _ + 1, _, [] => ([], [])
  | fuel + 1, keyed, t :: ts =>
    if t.is "," then
      let r := readItems fuel keyed ts
      (.comma t :: r.1, r.2)
    else if t.closes then ([], t :: ts)
    else
      match ts with
      | equals :: value =>
        if keyed ∧ t.isWord ∧ equals.is "=" then
          match readElement fuel value with
          | some (e, rest) =>
            let r := readItems fuel keyed rest
            (.value [t, equals] e :: r.1, r.2)
          | none => ([], t :: ts)
        else
          match readElement fuel (t :: ts) with
          | some (e, rest) =>
            let r := readItems fuel keyed rest
            (.value [] e :: r.1, r.2)
          | none => ([], t :: ts)
      | [] => ([], t :: ts)

/-- An annotation and the tokens behind it.  Every call has fewer tokens to read, so as much fuel as
there are tokens is enough. -/
def readAnnotationNode : (fuel : Nat) → List Token → Option (AnnotationNode × List Token)
  | 0, _ => none
  | _ + 1, [] => none
  | fuel + 1, sign :: ts =>
    match qualifiedName ts with
    | ([], _) => none
    | (name, ts) =>
      if sign.is "@" then
        match ts with
        | opening :: rest =>
          if opening.is "(" then
            match readItems fuel true rest with
            | (items, closing :: rest) =>
              if closing.is ")" then some (.mk sign name (some (opening, closing)) items, rest)
              else none
            | (_, []) => none
          else some (.mk sign name none [], ts)
        | [] => some (.mk sign name none [], ts)
      else none

/-- Reads an expression. -/
def readExpr : (fuel : Nat) → List Token → Option (Expr × List Token)
  | 0, _ => none
  | fuel + 1, ts =>
    match readOperand fuel ts with
    | none => none
    | some (left, rest) =>
      match readBinary fuel 1 left rest with
      | none => none
      | some (e, []) => some (e, [])
      | some (e, t :: rest) =>
        if t.is "?" then
          match readExpr fuel rest with
          | some (yes, colon :: rest) =>
            if colon.is ":" then
              (readExpr fuel rest).map fun r =>
                (.other (e.tokens ++ t :: yes.tokens ++ colon :: r.1.tokens), r.2)
            else none
          | _ => none
        else
          match operator? (t :: rest) with
          | some (op, rest) =>
            if assignments.contains (operatorText op) then
              (readExpr fuel rest).map fun r => (.other (e.tokens ++ op ++ r.1.tokens), r.2)
            else some (e, op ++ rest)
          | none => some (e, t :: rest)

/-- Reads the binary operators that bind at least as tightly as `least`, with their right
operands. -/
def readBinary : (fuel : Nat) → (least : Nat) → Expr → List Token → Option (Expr × List Token)
  | 0, _, _, _ => none
  | _ + 1, _, left, [] => some (left, [])
  | fuel + 1, least, left, t :: ts =>
    match operator? (t :: ts) with
    | none => some (left, t :: ts)
    | some (op, rest) =>
      match precedence? (operatorText op) with
      | none => some (left, t :: ts)
      | some p =>
        if p < least then some (left, t :: ts)
        else if t.is "instanceof" then
          let test := pattern ts
          readBinary fuel least (.other (left.tokens ++ t :: test.1)) test.2
        else
          match readOperand fuel rest with
          | none => none
          | some (right, rest) =>
            match readBinary fuel (p + 1) right rest with
            | none => none
            | some (right, rest) => readBinary fuel least (.binary left op right) rest

/-- Reads an operand: what binary operators join. -/
def readOperand : (fuel : Nat) → List Token → Option (Expr × List Token)
  | 0, _ => none
  | _ + 1, [] => none
  | fuel + 1, t :: ts =>
    if t.isOneOf ["+", "-", "!", "~", "++", "--"] then
      (readOperand fuel ts).map fun r => (.other (t :: r.1.tokens), r.2)
    else if t.is "(" then
      match closeGroup 1 ts with
      | none => none
      | some (inside, rest) =>
        if startsWith "->" rest then readLambda fuel (t :: inside) rest
        else if isCast inside rest then
          (readOperand fuel rest).map fun r => (.other (t :: inside ++ r.1.tokens), r.2)
        else
          match readWhole fuel ts with
          | some (e, closing :: rest) =>
            if closing.is ")" then readSuffixes fuel (.paren t e closing) rest else none
          | _ => none
    else if t.isString then readSuffixes fuel (.string t) ts
    else if t.isPlainLiteral then readSuffixes fuel (.other [t]) ts
    else if t.is "new" then
      let made := creation ts
      readSuffixes fuel (.other (t :: made.1)) made.2
    else if t.is "switch" then
      let subject := groupIn "(" ts
      let body := groupIn "\x7b" subject.2
      some (.other (t :: subject.1 ++ body.1), body.2)
    else
      match type? (t :: ts) with
      | some (type, mark :: word :: rest) =>
        if mark.is "." ∧ word.is "class" ∧ !t.is "@" then
          readSuffixes fuel (.classLiteral type mark word) rest
        else if mark.is "::" then readSuffixes fuel (.other type) (mark :: word :: rest)
        else readWord fuel (t :: ts)
      | _ => readWord fuel (t :: ts)

/-- Reads an operand that begins with a name or a keyword. -/
def readWord : (fuel : Nat) → List Token → Option (Expr × List Token)
  | 0, _ => none
  | _ + 1, [] => none
  | fuel + 1, t :: ts =>
    if !t.isWord then none
    else if startsWith "->" ts then readLambda fuel [t] ts
    else if t.is "null" then readSuffixes fuel (.null t) ts
    else readSuffixes fuel (.other [t]) ts

/-- Reads the arrow and the body of a lambda expression after its parameters. -/
def readLambda : (fuel : Nat) → (parameters : List Token) → List Token →
    Option (Expr × List Token)
  | 0, _, _ => none
  | _ + 1, _, [] => none
  | fuel + 1, parameters, arrow :: ts =>
    if startsWith "\x7b" ts then
      (group? ts).map fun r => (.other (parameters ++ arrow :: r.1), r.2)
    else (readExpr fuel ts).map fun r => (.other (parameters ++ arrow :: r.1.tokens), r.2)

/-- Reads what can follow an operand and belongs to it: members, arguments, indices. -/
def readSuffixes : (fuel : Nat) → Expr → List Token → Option (Expr × List Token)
  | 0, _, _ => none
  | _ + 1, e, [] => some (e, [])
  | fuel + 1, e, t :: ts =>
    if t.is "." ∧ startsWith "new" ts then
      let made := creation (ts.drop 1)
      readSuffixes fuel (.other (e.tokens ++ t :: ts.take 1 ++ made.1)) made.2
    else if t.isOneOf [".", "::"] then
      match typeArguments ts with
      | (arguments, word :: rest) =>
        if word.isWord ∨ word.isString then
          readSuffixes fuel (.other (e.tokens ++ t :: arguments ++ [word])) rest
        else none
      | (_, []) => none
    else if t.isOneOf ["(", "["] then
      match closeGroup 1 ts with
      | some (inside, rest) => readSuffixes fuel (.other (e.tokens ++ t :: inside)) rest
      | none => none
    else if t.isOneOf ["++", "--"] then readSuffixes fuel (.other (e.tokens ++ [t])) ts
    else some (e, t :: ts)

end

end RouteRegistry.Source
