import SockShop.Lib.Sed
import SockShop.Manifests

/-!
# The image references of the bundle

`make gen-complete-demo-aws` writes the bundle to `complete-demo-aws.yaml` and runs one `sed` command over it, which is to put the AWS
registry in front of every image reference. The first half of this module is the command. The second half is what is meant: the
lines of the bundle as YAML has them, an entry with the key `image` and a scalar on its line, or something else; and what an entry
denotes.

Which lines of a bundle are such entries is a matter of the lines before them (the text of a block scalar can look like an entry), so a
bundle is read as a list of `Line`s, of which `Line.text` is what the bundle has.

The locale of `sed` is C, where `isSpace` is what `\s` and `[[:space:]]` match.
-/

namespace SockShop.Manifests

open Awk

/-! ## The command -/

/-- The text that a match begins with. -/
def imageKey : Text := "image:".toList

/-- What is put in front of a reference, with the slash that follows it. -/
def registry : Text := "851725373216.dkr.ecr.us-east-1.amazonaws.com/".toList

/-- The expression `(image:\s*)([^[:space:]]+)` and the replacement `\1851725373216.dkr.ecr.us-east-1.amazonaws.com\/\2`. -/
def imageReference : Sed.Matcher := fun t =>
  if imageKey <+: t then
    let rest := t.drop imageKey.length
    let gap := rest.takeWhile isSpace
    let word := (rest.dropWhile isSpace).takeWhile (!isSpace ·)
    if word = [] then none
    else some (imageKey.length + gap.length + word.length - 1, imageKey ++ gap ++ registry ++ word)
  else none

/-- The command on a file whose last line has a newline at its end. -/
def sedImages (t : Text) : Text := unlines ((records t).map (Sed.gsub imageReference))

/-- `make gen-complete-demo-aws`: the text it leaves in `complete-demo-aws.yaml`. -/
def genCompleteDemoAws (C : Collation) (B : Batching) (t : Tree) : Text := sedImages (genCompleteDemo C B t)

example : Sed.gsub imageReference "      - image:  redis:alpine".toList =
    "      - image:  851725373216.dkr.ecr.us-east-1.amazonaws.com/redis:alpine".toList := by decide

example : Sed.gsub imageReference "image : nginx".toList = "image : nginx".toList := by decide

/-! ## Scalars -/

/-- A blank of YAML. -/
def isBlank (c : Char) : Bool := c = ' ' || c = '\t'

/-- The characters that YAML gives a meaning at the start of a node. -/
def indicators : List Char :=
  ['-', '?', ':', ',', '[', ']', '{', '}', '#', '&', '*', '!', '|', '>', '\'', '"', '%', '@', '`']

/-- The rest of a plain scalar, after the character `prev`: no colon before a blank or at the end, no `#` after a blank, no blank at
the end. -/
def isPlainAfter (prev : Char) : Text → Bool
  | [] => !isBlank prev && prev ≠ ':'
  | c :: cs => !(prev = ':' && isBlank c) && !(isBlank prev && c = '#') && isPlainAfter c cs

/-- A plain scalar on one line: it begins with no white space and no indicator, except one of `-`, `?` and `:` with something behind
it. -/
def isPlain : Text → Bool
  | [] => false
  | c :: cs =>
    !isSpace c && (c ∉ indicators || (c ∈ ['-', '?', ':'] && cs.head?.any (!isSpace ·))) && isPlainAfter c cs

/-- The escape sequences of a double-quoted scalar with one character after the backslash, and the characters they stand for. -/
def escapes : List (Char × Char) :=
  [('0', '\x00'), ('a', '\x07'), ('b', '\x08'), ('t', '\t'), ('\t', '\t'), ('n', '\n'), ('v', '\x0b'), ('f', '\x0c'), ('r', '\r'),
    ('e', '\x1b'), (' ', ' '), ('"', '"'), ('/', '/'), ('\\', '\\'), ('N', '\u0085'), ('_', '\u00a0'), ('L', '\u2028'),
    ('P', '\u2029')]

/-- The escape sequences with hexadecimal digits, and how many. -/
def hexEscapes : List (Char × Nat) := [('x', 2), ('u', 4), ('U', 8)]

/-- The value of hexadecimal digits, none when one is not a digit. -/
def hexValue (digits : List Char) : Option Nat :=
  digits.foldlM (fun n d =>
    if '0' ≤ d ∧ d ≤ '9' then some (n * 16 + (d.toNat - '0'.toNat))
    else if 'a' ≤ d ∧ d ≤ 'f' then some (n * 16 + (d.toNat - 'a'.toNat + 10))
    else if 'A' ≤ d ∧ d ≤ 'F' then some (n * 16 + (d.toNat - 'A'.toNat + 10))
    else none) 0

/-- A piece of a double-quoted scalar: a character as it is, or an escape sequence. -/
inductive Piece where
  | char (c : Char) (h : c ≠ '"' ∧ c ≠ '\\')
  | escape (letter c : Char) (h : (letter, c) ∈ escapes)
  | hex (letter : Char) (digits : List Char) (c : Char) (h : (letter, digits.length) ∈ hexEscapes)
      (hc : hexValue digits = some c.toNat)

/-- A scalar on one line, plain or quoted. -/
inductive Scalar where
  | plain (text : Text) (h : isPlain text = true)
  | single (value : Text)
  | double (pieces : List Piece)

/-- What stands in the line for a piece. -/
def Piece.text : Piece → Text
  | .char c _ => [c]
  | .escape letter _ _ => ['\\', letter]
  | .hex letter digits _ _ _ => '\\' :: letter :: digits

/-- The character a piece denotes. -/
def Piece.value : Piece → Char
  | .char c _ => c
  | .escape _ c _ => c
  | .hex _ _ c _ _ => c

/-- What stands in the line for a scalar. In single quotes a quote is written twice. -/
def Scalar.text : Scalar → Text
  | .plain text _ => text
  | .single value => '\'' :: (value.flatMap (fun c => if c = '\'' then ['\'', '\''] else [c]) ++ ['\''])
  | .double pieces => '"' :: (pieces.flatMap Piece.text ++ ['"'])

/-- The text a scalar denotes. -/
def Scalar.value : Scalar → Text
  | .plain text _ => text
  | .single value => value
  | .double pieces => pieces.map Piece.value

/-! ## Lines -/

/-- What may follow a scalar on its line: nothing, or blanks and perhaps a comment. -/
def isTrail (t : Text) : Bool := t.head?.all isBlank && (t.dropWhile isBlank).head?.all (· = '#')

/-- A tag or an anchor. -/
def isProperty (t : Text) : Bool := t.head?.any (· ∈ ['!', '&']) && t.all (!isBlank ·)

/-- A mapping entry with the key `image`, itself plain or quoted, and a scalar on its line, after indentation and perhaps a dash with
blanks behind it. There may be blanks in front of the colon, there are some behind it, and then there may be a tag and an anchor. -/
structure ImageEntry where
  indent : Nat
  dash : Option Text
  key : Scalar
  space : Text
  gap : Text
  properties : List (Text × Text)
  scalar : Scalar
  trail : Text
  dash_blank : ∀ blanks ∈ dash, blanks ≠ [] ∧ ∀ c ∈ blanks, isBlank c = true
  key_value : key.value = "image".toList
  space_blank : ∀ c ∈ space, isBlank c = true
  gap_blank : gap ≠ [] ∧ ∀ c ∈ gap, isBlank c = true
  isProperty_properties : ∀ p ∈ properties, isProperty p.1 = true ∧ p.2 ≠ [] ∧ ∀ c ∈ p.2, isBlank c = true
  isTrail_trail : isTrail trail = true

/-- What stands in front of the key. -/
def ImageEntry.lead (e : ImageEntry) : Text := List.replicate e.indent ' ' ++ e.dash.elim [] ('-' :: ·)

/-- What stands between the colon and the scalar. -/
def ImageEntry.between (e : ImageEntry) : Text := e.gap ++ e.properties.flatMap fun p => p.1 ++ p.2

/-- What stands in front of the scalar. -/
def ImageEntry.front (e : ImageEntry) : Text := e.lead ++ e.key.text ++ e.space ++ ':' :: e.between

/-- The line of an entry. -/
def ImageEntry.text (e : ImageEntry) : Text := e.front ++ (e.scalar.text ++ e.trail)

/-- A line of a bundle: an entry for an image, or anything else (another key, a comment, a part of another scalar). -/
inductive Line where
  | image (e : ImageEntry)
  | other (text : Text)

/-- The text of a line. -/
def Line.text : Line → Text
  | .image e => e.text
  | .other text => text

/-- The line `out` is what should become of a line: an entry for an image keeps everything but its scalar, which denotes the old
reference under the registry, and any other line is kept. -/
def Retargeted : Line → Text → Prop
  | .image e, out => ∃ scalar : Scalar, out = { e with scalar := scalar }.text ∧ scalar.value = registry ++ e.scalar.value
  | .other text, out => out = text

/-- No reference is found in the text: after `image:` there is nothing in it but white space. -/
def NoReference (t : Text) : Prop := ∀ pre post, t = pre ++ imageKey ++ post → ∀ c ∈ post, isSpace c = true

/-- The lines that the command turns into what they should become: an entry with a plain scalar that stands right behind the first
`image:` of its line, but for white space, with no reference after the first word of the scalar; and any other line with no reference in
it. -/
def Line.Retargetable : Line → Prop
  | .image e =>
    (imageKey <:+: e.front ∧ NoReference e.front) ∧ (∃ text h, e.scalar = .plain text h) ∧
      NoReference ((e.scalar.text ++ e.trail).dropWhile (!isSpace ·))
  | .other text => NoReference text

end SockShop.Manifests
