/-
RouteRegistry/Source/Tree.lean

Syntax trees of Java files.

The trees hold every token, so that `Expr.text` is the source text of an
expression with its white space and comments.  Two parts of the language have a
structure of their own: type declarations with their bodies, and annotations
with their arguments.  Of expressions the tree tells apart what an annotation
argument may be made of: literals, class literals, parentheses, binary
operators, arrays and annotations; any other expression is its tokens.  Code
(methods, fields, initialisers, enum constants) is a list of tokens in which
types can be declared.
-/
import RouteRegistry.Declaration
import RouteRegistry.Source.Token

namespace RouteRegistry.Source

/-! ### Expressions and annotations -/

mutual

/-- What an argument of an annotation can be, as far as it matters what it is. -/
inductive Expr where
  /-- A string literal or text block. -/
  | string (literal : Token)
  | null (word : Token)
  /-- A type, a dot and the word `class`. -/
  | classLiteral (type : List Token) (dot word : Token)
  | paren (opening : Token) (inner : Expr) (closing : Token)
  | binary (left : Expr) (operator : List Token) (right : Expr)
  | array (opening : Token) (items : List Item) (closing : Token)
  | annotated (a : AnnotationNode)
  | other (tokens : List Token)

/-- An item of an array or of an argument list: a value, in arguments possibly with a key and an
equals sign, or a comma. -/
inductive Item where
  | value (key : List Token) (e : Expr)
  | comma (t : Token)

/-- An annotation; `brackets` are the parentheses of its arguments, if it has any. -/
inductive AnnotationNode where
  | mk (sign : Token) (name : List Token) (brackets : Option (Token × Token)) (items : List Item)

end

instance : Inhabited Expr := ⟨.other []⟩

namespace AnnotationNode

/-- The token `@`, whose line is the annotation's. -/
def sign : AnnotationNode → Token
  | .mk sign _ _ _ => sign

/-- The name as it is written, segments and dots. -/
def name : AnnotationNode → List Token
  | .mk _ name _ _ => name

/-- The arguments with the commas between them. -/
def items : AnnotationNode → List Item
  | .mk _ _ _ items => items

end AnnotationNode

mutual

/-- The tokens of the expression in the order of the source. -/
def Expr.tokens : Expr → List Token
  | .string t => [t]
  | .null t => [t]
  | .classLiteral type dot word => type ++ [dot, word]
  | .paren opening inner closing => opening :: inner.tokens ++ [closing]
  | .binary left operator right => left.tokens ++ operator ++ right.tokens
  | .array opening items closing => opening :: itemTokens items ++ [closing]
  | .annotated a => a.tokens
  | .other ts => ts

/-- The tokens of a value with its key, or the comma. -/
def Item.tokens : Item → List Token
  | .value key e => key ++ e.tokens
  | .comma t => [t]

/-- The tokens of all items one after the other. -/
def itemTokens : List Item → List Token
  | [] => []
  | i :: is => i.tokens ++ itemTokens is

/-- The tokens of the annotation, its parentheses included. -/
def AnnotationNode.tokens : AnnotationNode → List Token
  | .mk sign name brackets items =>
    match brackets with
    | some (opening, closing) => sign :: name ++ opening :: itemTokens items ++ [closing]
    | none => sign :: name ++ itemTokens items

end

/-- The expression as it is written. -/
def Expr.text (e : Expr) : String := sourceText e.tokens

/-- The first of the expression's tokens. -/
def Expr.first? : Expr → Option Token
  | .string t => some t
  | .null t => some t
  | .classLiteral type dot _ => type.head?.or (some dot)
  | .paren opening _ _ => some opening
  | .binary left operator right => left.first?.or (operator.head?.or right.first?)
  | .array opening _ _ => some opening
  | .annotated (.mk sign _ _ _) => some sign
  | .other ts => ts.head?

/-- The first token is found without going through the others. -/
theorem Expr.head?_tokens (e : Expr) : e.tokens.head? = e.first? := by
  match e with
  | .string t => simp [Expr.tokens, Expr.first?]
  | .null t => simp [Expr.tokens, Expr.first?]
  | .classLiteral type dot word => simp [Expr.tokens, Expr.first?, List.head?_append]
  | .paren opening inner closing => simp [Expr.tokens, Expr.first?]
  | .binary left operator right =>
    simp [Expr.tokens, Expr.first?, List.head?_append, head?_tokens left, head?_tokens right]
  | .array opening items closing => simp [Expr.tokens, Expr.first?]
  | .annotated (.mk sign name brackets items) =>
    cases brackets <;> simp [Expr.tokens, AnnotationNode.tokens, Expr.first?]
  | .other ts => simp [Expr.tokens, Expr.first?]

/-- The first comment directly in front of the expression. -/
def Expr.commentBefore? (e : Expr) : Option String := e.first?.bind Token.comment?

/-! ### Declarations -/

/-- A word in front of a declaration, or an annotation there. -/
inductive Modifier where
  | word (t : Token)
  | annotated (a : AnnotationNode)

mutual

/-- A type declaration.  `header` is what stands between the name and the body; `constants` are
those of an enum, up to the semicolon after them. -/
inductive TypeDecl where
  | mk (kind : TypeKind) (modifiers : List Modifier) (name : Token) (header : List Token)
      (constants : List Code) (members : List Member)

/-- What a type's body consists of: types, and code of other members. -/
inductive Member where
  | type (d : TypeDecl)
  | code (parts : List Code)

/-- A token of the code, or a type that is declared there. -/
inductive Code where
  | token (t : Token)
  | type (d : TypeDecl)

end

namespace TypeDecl

/-- What kind of type is declared. -/
def kind : TypeDecl → TypeKind
  | .mk kind _ _ _ _ _ => kind

/-- The words and annotations in front of the declaration, in the order of writing. -/
def modifiers : TypeDecl → List Modifier
  | .mk _ modifiers _ _ _ _ => modifiers

/-- The token of the name. -/
def name : TypeDecl → Token
  | .mk _ _ name _ _ _ => name

/-- The body, without the constants of an enum. -/
def members : TypeDecl → List Member
  | .mk _ _ _ _ _ members => members

end TypeDecl

/-- What a file consists of. -/
inductive TopLevel where
  /-- A package declaration: the tokens of its name. -/
  | package (name : List Token)
  /-- An import declaration: all its tokens. -/
  | importDecl (tokens : List Token)
  | type (d : TypeDecl)
  | code (parts : List Code)

/-- A file: its parts in the order of writing. -/
abbrev CompilationUnit := List TopLevel

end RouteRegistry.Source
