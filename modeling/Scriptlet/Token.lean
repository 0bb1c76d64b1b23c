import Scriptlet.Span
import Scriptlet.Decimal.Layout

/-! Tokens: what kinds there are, how each is spelled and what a token carries. -/

namespace Scriptlet

inductive Kind where
  | leftParen
  | rightParen
  | leftBrace
  | rightBrace
  | comma
  | colon
  | minus
  | plus
  | slash
  | star
  | arrow
  | bang
  | bangEqual
  | equal
  | equalEqual
  | greater
  | greaterEqual
  | less
  | lessEqual
  | slashSlash
  | identifier
  | string
  | number
  | elseWord
  | falseWord
  | fnWord
  | ifWord
  | letWord
  | returnWord
  | trueWord
  | whileWord
  | endOfInput
deriving DecidableEq, Repr

namespace Kind

def name : Kind → String
  | leftParen => "LeftParen"
  | rightParen => "RightParen"
  | leftBrace => "LeftBrace"
  | rightBrace => "RightBrace"
  | comma => "Comma"
  | colon => "Colon"
  | minus => "Minus"
  | plus => "Plus"
  | slash => "Slash"
  | star => "Star"
  | arrow => "Arrow"
  | bang => "Bang"
  | bangEqual => "BangEqual"
  | equal => "Equal"
  | equalEqual => "EqualEqual"
  | greater => "Greater"
  | greaterEqual => "GreaterEqual"
  | less => "Less"
  | lessEqual => "LessEqual"
  | slashSlash => "SlashSlash"
  | identifier => "Identifier"
  | string => "String"
  | number => "Number"
  | elseWord => "Else"
  | falseWord => "False"
  | fnWord => "Fn"
  | ifWord => "If"
  | letWord => "Let"
  | returnWord => "Return"
  | trueWord => "True"
  | whileWord => "While"
  | endOfInput => "Eof"

/-- How a kind with one spelling is written, and a label for the others. -/
def spelling : Kind → String
  | leftParen => "("
  | rightParen => ")"
  | leftBrace => "\x7b"
  | rightBrace => "\x7d"
  | comma => ","
  | colon => ":"
  | minus => "-"
  | plus => "+"
  | slash => "/"
  | star => "*"
  | arrow => "->"
  | bang => "!"
  | bangEqual => "!="
  | equal => "="
  | equalEqual => "=="
  | greater => ">"
  | greaterEqual => ">="
  | less => "<"
  | lessEqual => "<="
  | slashSlash => "//"
  | identifier => "IDENTIFIER"
  | string => "STRING"
  | number => "NUMBER"
  | elseWord => "else"
  | falseWord => "false"
  | fnWord => "fn"
  | ifWord => "if"
  | letWord => "let"
  | returnWord => "return"
  | trueWord => "true"
  | whileWord => "while"
  | endOfInput => "EOF"

def all : List Kind :=
  [leftParen, rightParen, leftBrace, rightBrace, comma, colon, minus, plus, slash, star,
    arrow, bang, bangEqual, equal, equalEqual, greater, greaterEqual, less, lessEqual,
    slashSlash, identifier, string, number, elseWord, falseWord, fnWord, ifWord, letWord,
    returnWord, trueWord, whileWord, endOfInput]

theorem mem_all (kind : Kind) : kind ∈ all := by
  cases kind <;> decide

def ofName? (name : String) : Option Kind := all.find? (·.name == name)

def keywords : List Kind :=
  [elseWord, falseWord, fnWord, ifWord, letWord, returnWord, trueWord, whileWord]

def keyword? (word : String) : Option Kind := keywords.find? (·.spelling == word)

end Kind

inductive Payload where
  | number (value : Double)
  | text (value : String)
deriving DecidableEq

structure Token where
  kind : Kind
  lexeme : String
  payload : Option Payload
  span : Span
deriving DecidableEq

namespace Token

/-- The token that ends a list, at the place where the text ends. -/
def endOfInput (span : Span) : Token := ⟨.endOfInput, "", none, span⟩

def text (token : Token) : String :=
  s!"{token.kind.name} '{token.lexeme}' @{token.span.line}:{token.span.offset}"

end Token

end Scriptlet
