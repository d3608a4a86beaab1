import Provisioner.Tailscale.Flags

/-!
# The settings of a logged-in node

`tailscale_prefs_problems`: the flags the role applies, compared with what
`tailscale debug prefs` printed.
-/

namespace Provisioner.Tailscale

open Text (lower rstripChar sorted startswith strip)

/-- The document of `tailscale debug prefs`; a key may be missing. -/
structure Prefs where
  LoggedOut : Option Bool := none
  WantRunning : Option Bool := none
  CorpDNS : Option Bool := none
  RouteAll : Option Bool := none
  RunSSH : Option Bool := none
  ShieldsUp : Option Bool := none
  ExitNodeAllowLANAccess : Option Bool := none
  Hostname : Option Text := none
  OperatorUser : Option Text := none
  ControlURL : Option Text := none
  AdvertiseRoutes : Option (List Text) := none
  NoSNAT : Option Bool := none
  NetfilterMode : Option ℕ := none
  AdvertiseTags : Option (List Text) := none
  ExitNodeID : Option Text := none
  ExitNodeIP : Option Text := none
  RunWebClient : Option Bool := none
  AdvertiseServices : Option (List Text) := none
  PostureChecking : Option Bool := none

/-- What a message of the source says. -/
inductive Problem where
  | noDocument
  | notRunning
  | unexpectedArgument (word : Text)
  | boolDiffers (key flag : Text) (have_ want : Bool)
  | stringDiffers (key flag : Text)
  | controlNotDefault
  | controlDiffers
  | routesDiffer (have_ want : List Text)
  | snatDiffers
  | netfilterInvalid (mode : Text)
  | netfilterDiffers (mode : Text)
  | tagsDiffer (have_ want : List Text)
  | exitNodeFlag
  | exitNodeUsed
  | setByHand (key : Text)
  | unverifiable (name : Text)
deriving DecidableEq, Repr

/-! ## The tables -/

structure BoolFlag where
  flag : Text
  keyName : Text
  key : Prefs → Option Bool
  default : Bool

structure StringFlag where
  flag : Text
  keyName : Text
  key : Prefs → Option Text

def tsBoolFlags : List BoolFlag :=
  [⟨"accept-dns", "CorpDNS", Prefs.CorpDNS, true⟩,
    ⟨"accept-routes", "RouteAll", Prefs.RouteAll, false⟩,
    ⟨"ssh", "RunSSH", Prefs.RunSSH, false⟩,
    ⟨"shields-up", "ShieldsUp", Prefs.ShieldsUp, false⟩,
    ⟨"exit-node-allow-lan-access", "ExitNodeAllowLANAccess", Prefs.ExitNodeAllowLANAccess, false⟩]

-- both default to `''`
def tsStringFlags : List StringFlag :=
  [⟨"hostname", "Hostname", Prefs.Hostname⟩, ⟨"operator", "OperatorUser", Prefs.OperatorUser⟩]

def tsDefaultControl : List Text :=
  ["", "https://controlplane.tailscale.com", "https://login.tailscale.com"]

def tsNetfilter (mode : Text) : Option ℕ :=
  if lower mode = "off" then some 0
  else if lower mode = "nodivert" then some 1
  else if lower mode = "on" then some 2
  else none

/-! ## What a reading of the flags means -/

def tsList (value : Text) : List Text :=
  sorted (((value.splitOn ',').map strip).filter fun v => !v.isEmpty)

-- a reading gives each boolean flag and each other flag its value, where it is given
variable (prefs : Prefs) (b : Text → Option Bool) (t : Text → Option Text) (tags : List Text)

def exitRoutes : List Text := ["0.0.0.0/0", "::/0"]

/-- `set(routes) | (exit routes)` -/
def routeSet : List Text :=
  (tsList ((t "advertise-routes").getD []) ++
    if (b "advertise-exit-node").getD false then exitRoutes else []).dedup

def wantRoutes : List Text := sorted (routeSet b t)

def tagSet : List Text :=
  (tsList ((t "advertise-tags").getD []) ++
    tags.map fun tag => if startswith tag "tag:" then tag else "tag:" ++ tag).dedup

def wantTags : List Text := sorted (tagSet t tags)

def wantSnat : Bool := (b "snat-subnet-routes").getD true

def netfilterMode : Text := (t "netfilter-mode").getD "on"

/-! ## `_compare` -/

def runningProblems : List Problem :=
  if prefs.LoggedOut.getD false || !prefs.WantRunning.getD false then [.notRunning] else []

def argumentProblems : Positional → List Problem
  | .unset => []
  | .words words => words.map .unexpectedArgument
  -- iterating over a text gives its characters
  | .text value => value.map fun c => .unexpectedArgument [c]

def boolProblems : List Problem :=
  tsBoolFlags.flatMap fun row =>
    let want := (b row.flag).getD row.default
    let have_ := (row.key prefs).getD row.default
    if have_ ≠ want then [.boolDiffers row.keyName row.flag have_ want] else []

def stringProblems : List Problem :=
  tsStringFlags.flatMap fun row =>
    if (row.key prefs).getD [] ≠ (t row.flag).getD [] then
      [.stringDiffers row.keyName row.flag] else []

def controlProblems : List Problem :=
  match t "login-server" with
  | none =>
    if prefs.ControlURL.getD [] ∉ tsDefaultControl then [.controlNotDefault] else []
  | some control =>
    if rstripChar '/' (prefs.ControlURL.getD []) ≠ rstripChar '/' control then [.controlDiffers]
    else []

def routeProblems : List Problem :=
  let have_ := sorted (prefs.AdvertiseRoutes.getD [])
  if have_ ≠ wantRoutes b t then [.routesDiffer have_ (wantRoutes b t)] else []

def snatProblems : List Problem :=
  if prefs.NoSNAT.getD false ≠ !wantSnat b then [.snatDiffers] else []

def netfilterProblems : List Problem :=
  match tsNetfilter (netfilterMode t) with
  | none => [.netfilterInvalid (netfilterMode t)]
  | some mode =>
    if prefs.NetfilterMode.getD 2 ≠ mode then [.netfilterDiffers (netfilterMode t)] else []

def tagProblems : List Problem :=
  let have_ := sorted (prefs.AdvertiseTags.getD [])
  if have_ ≠ wantTags t tags then [.tagsDiffer have_ (wantTags t tags)] else []

def exitNodeProblems : List Problem :=
  if (t "exit-node").isSome then [.exitNodeFlag]
  else if prefs.ExitNodeID.getD [] ≠ [] ∨ prefs.ExitNodeIP.getD [] ≠ [] then [.exitNodeUsed]
  else []

def byHandProblems : List Problem :=
  (if prefs.RunWebClient.getD false then [.setByHand "RunWebClient"] else []) ++
  (if prefs.AdvertiseServices.getD [] ≠ [] then [.setByHand "AdvertiseServices"] else []) ++
  if prefs.PostureChecking.getD false then [.setByHand "PostureChecking"] else []

def leftoverProblems (p : Parsed) : List Problem :=
  (sorted ((Dict.keys p.flags).filter (· ∉ table))).map .unverifiable

def compare (p : Parsed) : List Problem :=
  runningProblems prefs ++ argumentProblems p.positional ++ boolProblems prefs p.bool ++
  stringProblems prefs p.text ++ controlProblems prefs p.text ++
  routeProblems prefs p.bool p.text ++ snatProblems prefs p.bool ++
  netfilterProblems prefs p.text ++ tagProblems prefs p.text tags ++
  exitNodeProblems prefs p.text ++ byHandProblems prefs ++ leftoverProblems p

/-- `none` where the arguments cannot be read, and the filter fails. -/
def tailscalePrefsProblems (prefsStdout : Option Prefs) (upArgs : Text) (tags : List Text) :
    Option (List Problem) :=
  match prefsStdout with
  | none => some [.noDocument]
  | some prefs => (tsParseArgs upArgs).map (compare prefs tags)

end Provisioner.Tailscale
