import Mathlib
import Sintius.Lib.NumberText
import Sintius.Lib.Regex
import Sintius.Lib.Utf16

/-! What `redactSensitiveText` takes out of a text: secrets after their names, bearer
tokens, signed tokens, keys of providers, and card numbers that pass the Luhn check. -/

namespace Sintius.Redaction

open Js Regex

def MAX_EVIDENCE_LENGTH : ℕ := 2000

/-- `\s` -/
def isSpace (c : CodeUnit) : Bool :=
  let n := c.val
  (9 ≤ n && n ≤ 13) || n == 0x20 || n == 0xa0 || n == 0x1680 || (0x2000 ≤ n && n ≤ 0x200a) ||
    n == 0x2028 || n == 0x2029 || n == 0x202f || n == 0x205f || n == 0x3000 || n == 0xfeff

def isLetter (c : CodeUnit) : Bool :=
  (0x41 ≤ c.val && c.val ≤ 0x5a) || (0x61 ≤ c.val && c.val ≤ 0x7a)

/-- `\w` -/
def isWord (c : CodeUnit) : Bool := isLetter c || isDigit c || c == 0x5f

/-- One of the characters of an ASCII literal. -/
def among (characters : String) (c : CodeUnit) : Bool := (ascii characters).contains c

/-- `[ -]` -/
def isSeparator : CodeUnit → Bool := among " -"

/-- The text itself. -/
def word (text : String) : Regex CodeUnit Unit := inOrder ((ascii text).map fun x c => c == x)

/-- The text in either letter case; only ASCII letters fold to ASCII letters. -/
def wordIgnoringCase (text : String) : Regex CodeUnit Unit :=
  inOrder ((ascii text).map fun x c =>
    c == x || (isLetter x && isLetter c && c.val % 32 == x.val % 32))

/-- `SENSITIVE_KEY`, ignoring case. -/
def SENSITIVE_KEY : Regex CodeUnit Unit :=
  oneOf [wordIgnoringCase "password", wordIgnoringCase "passwd", wordIgnoringCase "pwd",
    wordIgnoringCase "secret", wordIgnoringCase "token",
    (do
      wordIgnoringCase "api"
      opt (unit (among "_-"))
      wordIgnoringCase "key"),
    wordIgnoringCase "authorization", wordIgnoringCase "credential",
    (do
      wordIgnoringCase "private"
      opt (unit (among "_-"))
      wordIgnoringCase "key"),
    (do
      wordIgnoringCase "client"
      opt (unit (among "_-"))
      wordIgnoringCase "secret"),
    wordIgnoringCase "cvv", wordIgnoringCase "cvc"]

/-- `(?:Bearer|Basic)\s+`, ignoring case. -/
def scheme : Regex CodeUnit Unit := do
  oneOf [wordIgnoringCase "Bearer", wordIgnoringCase "Basic"]
  many1 (unit isSpace)

/-- `q[^q]*q` -/
def quoted (quote : CodeUnit) : Regex CodeUnit Unit := do
  unit (· == quote)
  many (unit (· != quote))
  unit (· == quote)

/-- A named secret; its key, separator and value are captured. -/
def secretPattern : Regex CodeUnit (Text × Text × Text) := do
  boundary isWord
  let key ← capture SENSITIVE_KEY
  let separator ← capture (do
    opt (unit (among "\"'"))
    many (unit isSpace)
    unit (among "=:")
    many (unit isSpace))
  opt scheme
  let value ← capture (oneOf [quoted 0x22, quoted 0x27,
    many1 (unit fun c => !isSpace c && !among ",;&" c)])
  return (key, separator, value)

def redactSecret : Text × Text × Text → Text → Text := fun (key, separator, value) _ =>
  let quote := match value with
    | 0x22 :: _ => [0x22]
    | 0x27 :: _ => [0x27]
    | _ => []
  key ++ separator ++ quote ++ ascii "[REDACTED]" ++ quote

/-- `/\b(?:Bearer|Basic)\s+[A-Za-z0-9._~+/=-]+/gi` -/
def bearerPattern : Regex CodeUnit Unit := do
  boundary isWord
  scheme
  many1 (unit fun c => isLetter c || isDigit c || among "._~+/=-" c)

/-- `match.split(/\s+/)[0]` is what comes before the first white space. -/
def redactBearer (_ : Unit) (text : Text) : Text :=
  text.takeWhile (fun c => !isSpace c) ++ ascii " [REDACTED]"

def isTokenUnit (c : CodeUnit) : Bool := isLetter c || isDigit c || among "_-" c

/-- `/\beyJ[A-Za-z0-9_-]+\.[A-Za-z0-9_-]+\.[A-Za-z0-9_-]*/g` -/
def jwtPattern : Regex CodeUnit Unit := do
  boundary isWord
  word "eyJ"
  many1 (unit isTokenUnit)
  unit (among ".")
  many1 (unit isTokenUnit)
  unit (among ".")
  many (unit isTokenUnit)

/-- `/\b(?:sk|pk|rk)_(?:live|test)_[A-Za-z0-9]+/g` -/
def keyPattern : Regex CodeUnit Unit := do
  boundary isWord
  oneOf [word "sk", word "pk", word "rk"]
  word "_"
  oneOf [word "live", word "test"]
  word "_"
  many1 (unit fun c => isLetter c || isDigit c)

/-- `\d[ -]?` -/
def digitAndSeparator : Regex CodeUnit Unit := do
  unit isDigit
  opt (unit isSeparator)

/-- `/\b(?:\d[ -]?){12,18}\d\b/g` -/
def cardPattern : Regex CodeUnit Unit := do
  boundary isWord
  between 12 18 digitAndSeparator
  unit isDigit
  boundary isWord

/-- The loop of `passesLuhn`, from the last digit. -/
def luhnSum : Bool → Text → ℤ
  | _, [] => 0
  | double, c :: digits =>
    let digit : ℤ := c.val - 48
    let doubled := if 2 * digit > 9 then 2 * digit - 9 else 2 * digit
    (if double then doubled else digit) + luhnSum (!double) digits

def passesLuhn (digits : Text) : Bool := luhnSum false digits.reverse % 10 == 0

/-- `match.replace(/[ -]/g, "")` -/
def digitsOf (text : Text) : Text := text.filter fun c => !isSeparator c

/-- A match that is replaced. -/
def isCardNumber (text : Text) : Bool :=
  let digits := digitsOf text
  13 ≤ digits.length && digits.length ≤ 19 && passesLuhn digits

def redactCard (_ : Unit) (text : Text) : Text :=
  if isCardNumber text then ascii "[REDACTED_PAN]" else text

def truncate (text : Text) : Text :=
  if text.length > MAX_EVIDENCE_LENGTH then
    text.take MAX_EVIDENCE_LENGTH ++ ascii "...[truncated]"
  else text

def redactSensitiveText (input : Text) : Text :=
  let text := replaceAll secretPattern redactSecret input
  let text := replaceAll bearerPattern redactBearer text
  let text := replaceAll jwtPattern (fun _ _ => ascii "[REDACTED_JWT]") text
  let text := replaceAll keyPattern (fun _ _ => ascii "[REDACTED_KEY]") text
  let text := replaceAll cardPattern redactCard text
  truncate text

end Sintius.Redaction
