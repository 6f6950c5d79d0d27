/-!
Which texts are e-mail addresses: a user part, an `@`, and either a host name or an address of the
Internet protocol in brackets.
-/

set_option autoImplicit false

namespace EventPipeline.Email

def isUserChar (c : Char) : Bool := c.isAlphanum || ".!#$%&'*+/=?^_`\x7b|\x7d~-".toList.contains c

def splitAt (separator : Char) : List Char → List (List Char)
  | [] => [[]]
  | c :: rest =>
      match splitAt separator rest with
      | [] => [[]]
      | part :: parts => if c = separator then [] :: part :: parts else (c :: part) :: parts

def isLabel (label : List Char) : Bool :=
  1 ≤ label.length && label.length ≤ 63 && label.all (fun c => c.isAlphanum || c == '-') &&
    label.head? != some '-' && label.getLast? != some '-'

def isHostName (domain : List Char) : Bool := (splitAt '.' domain).all isLabel

def isOctet (part : List Char) : Bool :=
  1 ≤ part.length && part.length ≤ 3 && part.all Char.isDigit &&
    (part.length == 1 || part.head? != some '0') &&
    part.foldl (fun value c => value * 10 + (c.toNat - '0'.toNat)) 0 ≤ 255

def isAddress4 (text : List Char) : Bool :=
  let parts := splitAt '.' text
  parts.length == 4 && parts.all isOctet

def isHexDigit (c : Char) : Bool := c.isDigit || ('a' ≤ c && c ≤ 'f') || ('A' ≤ c && c ≤ 'F')

def isGroup (part : List Char) : Bool :=
  1 ≤ part.length && part.length ≤ 4 && part.all isHexDigit

-- How many 16-bit groups a text stands for; only its last part may be written in dotted form.
def groups? (text : List Char) (dotted : Bool) : Option Nat :=
  if text.isEmpty then some 0
  else
    let parts := splitAt ':' text
    let size := parts.length
    if parts.all isGroup then some size
    else if dotted && parts.dropLast.all isGroup && (parts.getLast?.map isAddress4).getD false then
      some (size + 1)
    else none

def splitGap? : List Char → Option (List Char × List Char)
  | ':' :: ':' :: rest => some ([], rest)
  | c :: rest => (splitGap? rest).map fun parts => (c :: parts.1, parts.2)
  | [] => none

-- Eight groups, or fewer around one double colon that stands for the missing ones.
def isAddress6 (text : List Char) : Bool :=
  match splitGap? text with
  | none => !text.isEmpty && groups? text true == some 8
  | some (front, back) =>
      match groups? front false, groups? back true with
      | some m, some n => m + n ≤ 7
      | _, _ => false

def isLiteral (domain : List Char) : Bool :=
  match domain.reverse with
  | ']' :: rest =>
      let inner := (rest.takeWhile (· != '[')).reverse
      rest.contains '[' && (isAddress4 inner || isAddress6 inner)
  | _ => false

def isDomain (domain : List Char) : Bool :=
  domain.length ≤ 255 && (isHostName domain || isLiteral domain)

def isValid (text : String) : Bool :=
  let reversed := text.toList.reverse
  let domain := (reversed.takeWhile (· != '@')).reverse
  match (reversed.dropWhile (· != '@')).reverse with
  | [] => false
  | marked =>
      let user := marked.dropLast
      1 ≤ user.length && user.length ≤ 64 && user.all isUserChar && isDomain domain

end EventPipeline.Email
