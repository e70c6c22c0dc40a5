import Risclet.Operator
import Risclet.Pos

/-! # Tokens

Source text is read as a list of tokens, each with its kind, its lexeme and the position of its
first character.  The lexeme of a string is its text without quotes and escapes; of any other
token it is what stands in the source.  The list ends in a token for the end of the text.
-/
namespace Risclet

/-- The kinds of tokens. -/
inductive TokenKind where
  | identifier
  | intLiteral
  | stringLiteral
  | assign
  | plus
  | minus
  | multiply
  | divide
  | colon
  | semicolon
  | comma
  | leftParen
  | rightParen
  | endOfText
deriving DecidableEq, Repr

namespace TokenKind

/-- Every kind, in the order of the definition. -/
def all : List TokenKind :=
  [identifier, intLiteral, stringLiteral, assign, plus, minus, multiply, divide, colon, semicolon,
    comma, leftParen, rightParen, endOfText]

/-- The kind's name in listings of tokens. -/
def name : TokenKind → String
  | identifier => "IDENTIFIER"
  | intLiteral => "INT_LITERAL"
  | stringLiteral => "STRING_LITERAL"
  | assign => "ASSIGN"
  | plus => "PLUS"
  | minus => "MINUS"
  | multiply => "MULTIPLY"
  | divide => "DIVIDE"
  | colon => "COLON"
  | semicolon => "SEMICOLON"
  | comma => "COMMA"
  | leftParen => "LEFT_PAREN"
  | rightParen => "RIGHT_PAREN"
  | endOfText => "EOF"

/-- The kind with a given name. -/
def ofName? (name : String) : Option TokenKind :=
  all.find? (fun k => k.name == name)

/-- The kind of the token that a single character is. -/
def ofSymbol? (c : Char) : Option TokenKind :=
  match c with
  | '=' => some assign
  | '+' => some plus
  | '-' => some minus
  | '*' => some multiply
  | '/' => some divide
  | ':' => some colon
  | ';' => some semicolon
  | ',' => some comma
  | '(' => some leftParen
  | ')' => some rightParen
  | _ => none

/-- The operation that a kind of token stands for between two operands. -/
def arith? : TokenKind → Option Arith
  | plus => some .add
  | minus => some .subtract
  | multiply => some .multiply
  | divide => some .divide
  | _ => none

end TokenKind

/-- A token. -/
structure Token where
  kind : TokenKind
  lexeme : String
  pos : Pos
deriving DecidableEq, Repr

namespace Token

/-- The token in a listing: its kind, with its lexeme if the kind does not fix it. -/
def text (t : Token) : String :=
  match t.kind with
  | .identifier | .intLiteral | .stringLiteral => t.kind.name ++ "(" ++ t.lexeme ++ ")"
  | _ => t.kind.name

/-- The listing of tokens on one line. -/
def listing (ts : List Token) : String :=
  " ".intercalate (ts.map text)

end Token
end Risclet
