import EventPipeline.Text.Printable

/-!
Texts in double quotes, as they appear inside structured log fields and error messages.
-/

set_option autoImplicit false

namespace EventPipeline

def hexDigits (n : Nat) : List Char := Nat.toDigits 16 n

-- A quote, a backslash and the usual controls have short escapes; whatever cannot be shown is
-- written by its number.
def quotedChar (c : Char) : List Char :=
  match c with
  | '\x00' => ['\\', '0']
  | '\t' => ['\\', 't']
  | '\n' => ['\\', 'n']
  | '\r' => ['\\', 'r']
  | '"' => ['\\', '"']
  | '\\' => ['\\', '\\']
  | c => if isPrintable c then [c] else ['\\', 'u', '\x7b'] ++ hexDigits c.toNat ++ ['\x7d']

def quoted (text : String) : String :=
  String.ofList ('"' :: text.toList.flatMap quotedChar ++ ['"'])

def quotedOption : Option String → String
  | none => "None"
  | some text => "Some(" ++ quoted text ++ ")"

def bracketed (items : List String) : String := "[" ++ String.intercalate ", " items ++ "]"

def quotedList (texts : List String) : String := bracketed (texts.map quoted)

end EventPipeline
