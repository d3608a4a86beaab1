import Provisioner.Library.Casing
import Provisioner.Library.Dict

/-!
# The flags of `tailscale up`

How `filter_plugins/tailscale.py` reads the declared arguments, and how the
flag package of Go, which `tailscale` itself uses, reads them.
-/

namespace Provisioner.Tailscale

open Text (lower strip startswith)

/-! ## `shlex.split` -/

inductive LexState where
  | blank
  | word
  | quote (q : Char)
  | escape (back : LexState) (own : Char)
deriving DecidableEq, Repr

def isShlexBlank (c : Char) : Bool := c == ' ' || c == '\t' || c == '\r' || c == '\n'

/-- `none` where a quotation or an escape is left open. -/
def shlexTokens : LexState → Text → Text → Option (List Text)
  | .blank, _, [] => some []
  | .word, token, [] => some [token]
  | .quote _, _, [] => none
  | .escape _ _, _, [] => none
  | .blank, _, c :: rest =>
    if isShlexBlank c then shlexTokens .blank [] rest
    else if c = '\\' then shlexTokens (.escape .word c) [] rest
    else if c = '\'' ∨ c = '"' then shlexTokens (.quote c) [] rest
    else shlexTokens .word [c] rest
  | .word, token, c :: rest =>
    if isShlexBlank c then (shlexTokens .blank [] rest).map (token :: ·)
    else if c = '\\' then shlexTokens (.escape .word c) token rest
    else if c = '\'' ∨ c = '"' then shlexTokens (.quote c) token rest
    else shlexTokens .word (token ++ [c]) rest
  | .quote q, token, c :: rest =>
    if c = q then shlexTokens .word token rest
    else if c = '\\' ∧ q = '"' then shlexTokens (.escape (.quote q) c) token rest
    else shlexTokens (.quote q) (token ++ [c]) rest
  -- between double quotes a backslash stays, unless it escapes itself or the quote
  | .escape back own, token, c :: rest =>
    let kept := if back ≠ .word ∧ c ≠ own ∧ back ≠ .quote c then [own] else []
    shlexTokens back (token ++ kept ++ [c]) rest

def shlexSplit (args : Text) : Option (List Text) := shlexTokens .blank [] args

example : shlexSplit ("--ssh --hostname='a b' \"c\\\"d\\e\"" : Text) =
    some ([("--ssh" : Text), "--hostname=a b", "c\"d\\e"]) := by decide

/-! ## The tables -/

def tsBoolFlagNames : List Text :=
  ["accept-dns", "accept-routes", "ssh", "shields-up", "exit-node-allow-lan-access"]

def tsStringFlagNames : List Text := ["hostname", "operator"]

/-- The other flags the comparison covers. -/
def otherFlagNames : List Text :=
  ["login-server", "advertise-routes", "advertise-exit-node", "snat-subnet-routes",
    "netfilter-mode", "advertise-tags", "exit-node"]

def tsIgnoredFlags : List Text :=
  ["timeout", "authkey", "auth-key", "qr", "json", "reset", "force-reauth"]

def table : List Text :=
  tsBoolFlagNames ++ tsStringFlagNames ++ otherFlagNames ++ tsIgnoredFlags

/-! ## `_ts_parse_args` -/

/-- What the key `_positional` holds: the words, or the text a flag of that name
was given. -/
inductive Positional where
  | unset
  | words (words : List Text)
  | text (value : Text)
deriving DecidableEq, Repr

structure Parsed where
  flags : List (Text × Text) := []
  positional : Positional := .unset
deriving DecidableEq, Repr

/-- `flags.setdefault("_positional", []).append(tok)`: a text has no `append`. -/
def Parsed.word (p : Parsed) (tok : Text) : Option Parsed :=
  match p.positional with
  | .unset => some { p with positional := .words [tok] }
  | .words words => some { p with positional := .words (words ++ [tok]) }
  | .text _ => none

def Parsed.set (p : Parsed) (name value : Text) : Parsed :=
  if name = "_positional" then { p with positional := .text value }
  else { p with flags := Dict.put p.flags (name, value) }

def bare (tok : Text) : Text := tok.dropWhile (· == '-')

def beforeEquals (t : Text) : Text := t.takeWhile (· ≠ '=')

def afterEquals (t : Text) : Option Text :=
  if '=' ∈ t then some (t.dropWhile (· ≠ '=')).tail else none

def standsAlone (name : Text) : Bool :=
  name ∈ tsBoolFlagNames || name = "advertise-exit-node" || name = "snat-subnet-routes" ||
    name ∈ tsIgnoredFlags

def tsParseTokens : Parsed → List Text → Option Parsed
  | p, [] => some p
  | p, tok :: rest =>
    if startswith tok "-" then
      let name := beforeEquals (bare tok)
      match afterEquals (bare tok) with
      | some value => tsParseTokens (p.set name value) rest
      | none =>
        if standsAlone name then tsParseTokens (p.set name "true") rest
        else
          match rest with
          | [] => some (p.set name [])
          | next :: rest' =>
            if startswith next "-" then tsParseTokens (p.set name []) (next :: rest')
            else tsParseTokens (p.set name next) rest'
    else
      match p.word tok with
      | some p' => tsParseTokens p' rest
      | none => none

def tsParseArgs (args : Text) : Option Parsed :=
  match shlexSplit args with
  | some tokens => tsParseTokens {} tokens
  | none => none

def tsBool (value : Text) : Bool :=
  lower (strip value) ∈ (["1", "true", "t", "yes", "y", "on"] : List Text)

def Parsed.text (p : Parsed) (flag : Text) : Option Text := Dict.get p.flags flag

def Parsed.bool (p : Parsed) (flag : Text) : Option Bool := (p.text flag).map tsBool

/-! ## The flag package of Go -/

inductive Item where
  | bool (name : Text) (value : Bool)
  | text (name : Text) (value : Text)
deriving DecidableEq, Repr

def goBoolFlags : List Text :=
  tsBoolFlagNames ++
    [("advertise-exit-node" : Text), "snat-subnet-routes", "qr", "json", "reset", "force-reauth"]

def parseBool (value : Text) : Option Bool :=
  if value ∈ (["1", "t", "T", "TRUE", "true", "True"] : List Text) then some true
  else if value ∈ (["0", "f", "F", "FALSE", "false", "False"] : List Text) then some false
  else none

/-- The name and the value after one or two dashes; `none` for a positional word
and for bad flag syntax. -/
def goFlag (tok : Text) : Option (Text × Option Text) :=
  let named (t : Text) :=
    if t.isEmpty || t.head? = some '-' || t.head? = some '=' then none
    else some (beforeEquals t, afterEquals t)
  match tok with
  | '-' :: '-' :: t => named t
  | '-' :: t => named t
  | _ => none

/-- `none` where a token is not a flag of the tables with its value. -/
def goParse : List Text → Option (List Item)
  | [] => some []
  | tok :: rest =>
    match goFlag tok with
    | none => none
    | some (name, value) =>
      if name ∉ table then none
      else if name ∈ goBoolFlags then
        match value with
        | none => (goParse rest).map (.bool name true :: ·)
        | some v =>
          match parseBool v with
          | some b => (goParse rest).map (.bool name b :: ·)
          | none => none
      else
        match value with
        | some v => (goParse rest).map (.text name v :: ·)
        | none =>
          match rest with
          | [] => none
          | v :: rest' => (goParse rest').map (.text name v :: ·)

/-- A later repetition wins. -/
def goBool (items : List Item) (flag : Text) : Option Bool :=
  items.reverse.findSome? fun
    | .bool name value => if name = flag then some value else none
    | .text _ _ => none

def goText (items : List Item) (flag : Text) : Option Text :=
  items.reverse.findSome? fun
    | .text name value => if name = flag then some value else none
    | .bool _ _ => none

end Provisioner.Tailscale
