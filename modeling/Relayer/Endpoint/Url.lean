import Relayer.Text.Decimal
import Relayer.Text.Hex

namespace Relayer.Url

/-!
# Url — whether a text is an absolute address on the web

Only the rules that can refuse a text are here; what it denotes does not matter.  Names beyond ASCII
are taken as they are.

* `isIpv4` / `isIpv6` — numeric hosts;
* `isHost` / `isOpaqueHost` — hosts of well-known schemes and of all others;
* `isValid` — whole addresses.
-/

/-! ### Numeric hosts -/

/-- The parts of a text between points. -/
def parts (text : List Char) : List (List Char) := text.splitOn '.'

/-- A part of a numeric host, in base sixteen, eight or ten by its first characters.  The outer
    option tells whether it is a number at all. -/
def ipv4Number (text : List Char) : Option Nat :=
  let (base, digits) := match text with
    | '0' :: 'x' :: rest => (16, rest)
    | '0' :: 'X' :: rest => (16, rest)
    | '0' :: c :: rest => (8, c :: rest)
    | _ => (10, text)
  if text.isEmpty then none
  else digits.foldlM (fun n c => match Hex.value? c with
    | some d => if d < base then some (base * n + d) else none
    | none => none) 0

/-- The parts of a numeric host, of which the last one may be empty. -/
def ipv4Parts (host : List Char) : List (List Char) :=
  let ps := parts host
  if ps.getLast? = some [] then ps.dropLast else ps

/-- Whether a host has to be read as a number. -/
def endsInNumber (host : List Char) : Bool :=
  match (ipv4Parts host).getLast? with
  | some last =>
    (!last.isEmpty && last.all Char.isDigit) || (ipv4Number last).isSome
  | none => false

/-- Whether a host is a number of 32 bits in up to four parts. -/
def isIpv4 (host : List Char) : Bool :=
  let ps := ipv4Parts host
  match ps.mapM ipv4Number with
  | some numbers =>
    numbers.length ≤ 4 && numbers.dropLast.all (· ≤ 255) &&
      (match numbers.getLast? with
        | some last => last < Nat.pow 256 (5 - numbers.length)
        | none => false)
  | none => false

/-- Whether a text is four decimal numbers of eight bits, none with a leading zero. -/
def isPlainIpv4 (text : List Char) : Bool :=
  let ps := parts text
  ps.length = 4 && ps.all fun p =>
    !p.isEmpty && p.all Char.isDigit && (p.length = 1 || p.head? ≠ some '0') && p.length ≤ 3 &&
      (ipv4Number p).any (· ≤ 255)

/-- Whether the rest of a host is well-formed behind `count` groups of four digits, of which a
    double colon may stand for any number. -/
def groups : (fuel count : Nat) → (shortened : Bool) → List Char → Bool
  | 0, _, _, _ => false
  | _ + 1, count, shortened, [] => shortened || count = 8
  | fuel + 1, count, shortened, c :: rest =>
    if count = 8 then false
    else if c = ':' then !shortened && groups fuel (count + 1) true rest
    else
      let digits := ((c :: rest).take 4).takeWhile fun c => (Hex.value? c).isSome
      let rest := (c :: rest).drop digits.length
      if digits.isEmpty then false
      else match rest with
        | [] => groups fuel (count + 1) shortened []
        | ':' :: rest => !rest.isEmpty && groups fuel (count + 1) shortened rest
        | '.' :: _ =>
          count ≤ 6 && isPlainIpv4 (digits ++ rest) && (shortened || count + 2 = 8)
        | _ => false

/-- Whether a text is a number of 128 bits in groups. -/
def isIpv6 (text : List Char) : Bool :=
  match text with
  | ':' :: ':' :: rest => groups (text.length + 1) 1 true rest
  | ':' :: _ => false
  | _ => groups (text.length + 1) 0 false text

/-! ### Hosts -/

/-- The content of brackets around a whole text. -/
def bracketed? : List Char → Option (Option (List Char))
  | '[' :: rest => some (if rest.getLast? = some ']' then some rest.dropLast else none)
  | _ => none

/-- A text with bytes written as `%` and two digits put in, where they are UTF-8. -/
def decoded? (text : List Char) : Option (List Char) :=
  let rec go : Nat → List UInt8 → List UInt8
    | 0, _ => []
    | _ + 1, [] => []
    | fuel + 1, b :: rest =>
      let digit? (b : UInt8) := Hex.value? (Char.ofNat b.toNat)
      match b == 0x25, rest with
      | true, h :: l :: more =>
        match digit? h, digit? l with
        | some h, some l => UInt8.ofNat (16 * h + l) :: go fuel more
        | _, _ => b :: go fuel rest
      | _, _ => b :: go fuel rest
  let bytes := (String.ofList text).toUTF8.toList
  (String.fromUTF8? ⟨(go (bytes.length + 1) bytes).toArray⟩).map (·.toList)

/-- Characters that no name of a host may have. -/
def isForbidden (c : Char) : Bool :=
  c.toNat ≤ 0x20 || c.toNat = 0x7f || "#%/:<>?@[\\]^|".toList.contains c

/-- Whether a text is the host of a well-known scheme. -/
def isHost (text : List Char) : Bool :=
  match bracketed? text with
  | some content => content.any isIpv6
  | none =>
    match decoded? text with
    | none => false
    | some name =>
      !name.isEmpty && !name.any isForbidden && (!endsInNumber name || isIpv4 name)

/-- Whether a text is the host of any other scheme; it may be empty. -/
def isOpaqueHost (text : List Char) : Bool :=
  match bracketed? text with
  | some content => content.any isIpv6
  | none => !text.any fun c => c = '\x00' || "\t\n\r #/:<>?@[\\]^|".toList.contains c

/-! ### Addresses -/

/-- The schemes whose addresses always have a host. -/
def special : List String := ["http", "https", "ws", "wss", "ftp"]

/-- The text without control characters and spaces at its ends, and without ends of lines. -/
def cleaned (text : List Char) : List Char :=
  let trim (text : List Char) := (text.dropWhile (·.toNat ≤ 0x20)).reverse
  (trim (trim text)).filter fun c => c ≠ '\t' ∧ c ≠ '\n' ∧ c ≠ '\r'

/-- The scheme of an address in lower case, and what follows its colon. -/
def scheme? (text : List Char) : Option (String × List Char) :=
  let name := text.takeWhile (· ≠ ':')
  match text.drop name.length with
  | _ :: rest =>
    if (name.head?.any Char.isAlpha) && name.all fun c => c.isAlphanum || "+-.".toList.contains c
    then some (String.ofList (name.map Char.toLower), rest)
    else none
  | [] => none

/-- The end of a host, which is that of the text or a colon outside brackets. -/
def hostLength (inBrackets : Bool) : List Char → Nat
  | [] => 0
  | c :: rest =>
    if c = ':' ∧ !inBrackets then 0
    else if c = '[' then hostLength true rest + 1
    else if c = ']' then hostLength false rest + 1
    else hostLength inBrackets rest + 1

/-- Whether what follows a host is nothing or a port of 16 bits.  Only a well-known scheme refuses a
    backslash behind the port. -/
def isPort (isSpecial : Bool) (text : List Char) : Bool :=
  match text with
  | [] => true
  | _ :: rest =>
    let digits := rest.takeWhile Char.isDigit
    (digits.isEmpty || (Decimal.read UInt16.size (String.ofList digits)).isOk) &&
      match rest.drop digits.length with
      | [] => true
      | c :: _ => !isSpecial && c = '\\'

/-- Whether what follows the two slashes is well-formed up to the path: user, host and port. -/
def isAuthority (isSpecial : Bool) (text : List Char) : Bool :=
  let isEnd (c : Char) : Bool := c = '/' || c = '?' || c = '#' || (isSpecial && c = '\\')
  let authority := text.takeWhile (!isEnd ·)
  let hostPort := (authority.reverse.takeWhile (· ≠ '@')).reverse
  let user := authority.take (authority.length - hostPort.length)
  let host := hostPort.take (hostLength false hostPort)
  let port := hostPort.drop host.length
  if isSpecial then isHost host && isPort true port
  else
    isOpaqueHost host && isPort false port &&
      (!host.isEmpty || (port.isEmpty && (user.isEmpty || user = [':', '@'] ||
        (user = ['@'] && authority.length = text.length))))

/-- Whether a text is a letter and a colon or bar. -/
def isDrive (text : List Char) : Bool :=
  match text with
  | [a, b] => a.isAlpha && (b = ':' || b = '|')
  | _ => false

/-- Whether the address of a file is well-formed behind its scheme. -/
def isFile (text : List Char) : Bool :=
  let isSlash (c : Char) : Bool := c = '/' || c = '\\'
  match text with
  | a :: b :: rest =>
    if isSlash a && isSlash b then
      let host := rest.takeWhile fun c => !isSlash c && c ≠ '?' && c ≠ '#'
      host.isEmpty || isDrive host || isHost host
    else true
  | _ => true

/-- Whether a text is an absolute address. -/
def isValid (text : String) : Bool :=
  match scheme? (cleaned text.toList) with
  | none => false
  | some (scheme, rest) =>
    if scheme = "file" then isFile rest
    else if special.contains scheme then
      isAuthority true (rest.dropWhile fun c => c = '/' || c = '\\')
    else match rest with
      | '/' :: '/' :: rest => isAuthority false rest
      | _ => true

end Relayer.Url
