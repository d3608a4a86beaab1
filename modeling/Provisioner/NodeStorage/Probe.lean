import Provisioner.Library.Dict
import Provisioner.Library.Text

/-!
# The data disk probe

What `tasks/probe.yml` registers and how `node_storage_build_probe` folds it
into one record. Every parser has a value for a command that was skipped,
failed or never ran; the classifier only ever sees that value.
-/

namespace Provisioner.NodeStorage

/-- What a filter can raise on a document it cannot read. -/
inductive PyError where
  | value
  | type
  | key
deriving DecidableEq, Repr

/-- A registered `command` result. `rc` is missing when nothing was executed. -/
structure Result where
  skipped : Bool := false
  rc : Option Int := none
  stdout : Text := []
  stderr : Text := []
deriving DecidableEq, Repr

structure Stat where
  isThere : Option Bool := none
  isblk : Bool := false
  islnk : Bool := false
  isdir : Bool := false
  isreg : Bool := false
deriving DecidableEq, Repr

/-- A registered `stat` result. -/
structure StatResult where
  skipped : Bool := false
  failed : Bool := false
  stat : Option Stat := none
deriving DecidableEq, Repr

/-- What a loop ran over: a path, or a bind entry with its `target`. -/
inductive Item where
  | path (p : Text)
  | entry (target : Option Text)
deriving DecidableEq, Repr

structure Looped (α : Type) where
  item : Item
  result : α
deriving DecidableEq, Repr

/-- One device of `lsblk -J`; `mountpoint` is what util-linux before 2.37 prints. -/
inductive BlockDevice where
  | mk (name path type fstype : Option Text) (mountpoints : Option (List (Option Text)))
      (mountpoint : Option Text) (children : List BlockDevice)

namespace BlockDevice

def name : BlockDevice → Option Text | mk n _ _ _ _ _ _ => n
def path : BlockDevice → Option Text | mk _ p _ _ _ _ _ => p
def type : BlockDevice → Option Text | mk _ _ t _ _ _ _ => t
def fstype : BlockDevice → Option Text | mk _ _ _ f _ _ _ => f
def mountpoints : BlockDevice → Option (List (Option Text)) | mk _ _ _ _ m _ _ => m
def mountpoint : BlockDevice → Option Text | mk _ _ _ _ _ m _ => m
def children : BlockDevice → List BlockDevice | mk _ _ _ _ _ _ c => c

end BlockDevice

/-- One filesystem of `findmnt -J`. -/
structure Filesystem where
  source : Option Text := none
  options : Option Text := none
deriving DecidableEq, Repr

/-- `json.loads` on the output of the two commands that print JSON: the
`blockdevices` and the `filesystems` list, or the exception raised. -/
structure Loads where
  blockdevices : Text → Except PyError (List BlockDevice)
  filesystems : Text → Except PyError (List Filesystem)

inductive PathType where
  | absent
  | directory
  | symlink
  | file
  | other
  | unknown
deriving DecidableEq, Repr

structure Probe where
  deviceInput : Text
  device : Text
  isBlock : Bool
  blkid : List (Text × Text)
  blkidError : Text
  lsblk : Option BlockDevice
  mounts : List (Text × Option Filesystem)
  pathType : List (Text × PathType)
  dirNonempty : List (Text × Bool)
  findError : List (Text × Text)

/-- `dict.get` on a dictionary filled in the order of the list. -/
def get {α : Type} (d : List (Text × α)) (k : Text) : Option α :=
  (Dict.lastBy Prod.fst d k).map Prod.snd

-- `_ran`, for a result that is a dict; a result of another type never ran.
def ran (result : Option Result) : Bool :=
  result.any fun r => r.rc.isSome && !r.skipped

def exited (result : Option Result) (rc : Int) : Bool :=
  ran result && result.any fun r => r.rc == some rc

def stdout (result : Option Result) : Text := (result.map Result.stdout).getD []

def stderr (result : Option Result) : Text := (result.map Result.stderr).getD []

def rcText (r : Result) : Text := (r.rc.map fun rc => (toString rc).toList).getD []

-- `re.sub(r"\\(.)", r"\1", value)`
def unescape : Text → Text
  | '\\' :: c :: rest => c :: unescape rest
  | c :: rest => c :: unescape rest
  | [] => []

def parseBlkidLine (line : Text) : Option (Text × Text) :=
  let line := Text.strip line
  if '=' ∈ line then
    some (Text.strip (line.takeWhile (· ≠ '=')), unescape ((line.dropWhile (· ≠ '=')).tail))
  else
    none

def parseBlkid (out : Text) : List (Text × Text) :=
  Dict.ofRows ((out.splitOnP Text.isLineBreak).filterMap parseBlkidLine)

def blkid (result : Option Result) : List (Text × Text) :=
  if !ran result || exited result 2 then []
  else if exited result 0 then parseBlkid (stdout result)
  else [("BLKID_RC", (result.map rcText).getD [])]

def blkidError (result : Option Result) : Text :=
  if exited result 2 then Text.strip (stderr result) else []

/-- `_doc(...).get(...)`: no output reads as the empty list. -/
def doc {α : Type} (loads : Text → Except PyError (List α)) (out : Text) :
    Except PyError (List α) :=
  let text := Text.strip out
  if text.isEmpty then .ok [] else loads text

def lsblk (loads : Loads) (result : Option Result) : Except PyError (Option BlockDevice) :=
  if exited result 0 then (doc loads.blockdevices (stdout result)).map List.head?
  else .ok none

/-- Several filesystems on one mountpoint are listed in mount order; the last
one is what a process sees. -/
def findmnt (loads : Loads) (result : Result) : Except PyError (Option Filesystem) :=
  if exited (some result) 0 then (doc loads.filesystems result.stdout).map List.getLast?
  else .ok none

def pathType (result : StatResult) : PathType :=
  if result.skipped || result.failed then .unknown
  else
    match result.stat with
    | none => .unknown
    | some st =>
      match st.isThere with
      | none => .unknown
      | some false => .absent
      | some true =>
        if st.islnk then .symlink
        else if st.isdir then .directory
        else if st.isreg then .file
        else .other

def itemPath : Item → Option Text
  | .path p => some p
  | .entry target => target

/-- An item that names no path, or the empty one, is skipped. -/
def named {α : Type} (results : List (Looped α)) : List (Text × α) :=
  results.filterMap fun r =>
    match itemPath r.item with
    | none => none
    | some p => if p.isEmpty then none else some (p, r.result)

-- A bind entry is a dict, and a dict cannot be a key of `mounts`.
def mountEntry (loads : Loads) (r : Looped Result) : Except PyError (Text × Option Filesystem) :=
  match r.item with
  | .path p => (findmnt loads r.result).map fun m => (p, m)
  | .entry _ => .error .type

def buildMounts (loads : Loads) (results : List (Looped Result)) :
    Except PyError (List (Text × Option Filesystem)) :=
  results.mapM (mountEntry loads)

def buildTypes (results : List (Looped StatResult)) : List (Text × PathType) :=
  (named results).map fun r => (r.1, pathType r.2)

def findFailure (r : Result) : Text :=
  let text := Text.strip r.stderr
  let how : Text := if ran (some r) then rcText r else "without running"
  if !text.isEmpty then text else "find exited " ++ how

def buildErrors (types : List (Text × PathType)) (results : List (Looped Result)) :
    List (Text × Text) :=
  (named results).filterMap fun r =>
    if get types r.1 = some .directory ∧ exited (some r.2) 0 = false then
      some (r.1, findFailure r.2)
    else
      none

def buildNonempty (mounts : List (Text × Option Filesystem)) (types : List (Text × PathType))
    (results : List (Looped Result)) : List (Text × Bool) :=
  (named results).map fun r =>
    (r.1,
      if get types r.1 = some .directory ∧ exited (some r.2) 0 = true then
        !(Text.strip r.2.stdout).isEmpty && (get mounts r.1).join.isNone
      else
        false)

/-- The registered results of `tasks/probe.yml`. -/
structure Raw where
  deviceInput : Text
  realpath : Option Result
  stat : Option StatResult
  blkid : Option Result
  lsblk : Option Result
  findmnt : List (Looped Result)
  find : List (Looped Result)
  pathStat : List (Looped StatResult)
deriving DecidableEq, Repr

def resolved (raw : Raw) : Text :=
  if exited raw.realpath 0 then Text.strip (stdout raw.realpath) else []

def isBlock (raw : Raw) : Bool :=
  let st := ((raw.stat.bind StatResult.stat).getD {})
  !(resolved raw).isEmpty && st.isThere == some true && st.isblk

/-- The record returned, once the parsers that can raise have run. -/
def assemble (raw : Raw) (mounts : List (Text × Option Filesystem))
    (listed : Option BlockDevice) : Probe :=
  let types := buildTypes raw.pathStat
  { deviceInput := raw.deviceInput
    device := resolved raw
    isBlock := isBlock raw
    blkid := if isBlock raw then blkid raw.blkid else []
    blkidError := if isBlock raw then blkidError raw.blkid else []
    lsblk := listed
    mounts := mounts
    pathType := types
    dirNonempty := buildNonempty mounts types raw.find
    findError := buildErrors types raw.find }

def nodeStorageBuildProbe (loads : Loads) (raw : Raw) : Except PyError Probe := do
  let mounts ← buildMounts loads raw.findmnt
  let listed ← (if isBlock raw then lsblk loads raw.lsblk else .ok none)
  return assemble raw mounts listed

end Provisioner.NodeStorage
