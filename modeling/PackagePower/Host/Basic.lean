import PackagePower.Fault
import PackagePower.Host.Contents

/-!
# Hosts

A host is the tree of files under one device root: for each path a file or that it is a
directory, and for each file its contents. A path keeps the text of the root for display;
lookups go by the names below it.

A file is more than its path. What was opened stays the file it was when something else comes
to stand at the path, and it can be read and written when nothing stands there any more.

Only what can be observed through the operations here is kept: a host has no permissions, no
links and no times.
-/

namespace PackagePower

/-- A file or directory below a device root, which is kept as text for display. -/
structure Path where
  root : String
  names : List String
  deriving DecidableEq

namespace Path

def child (path : Path) (name : String) : Path := { path with names := path.names ++ [name] }

/-- Root and names joined by slashes; a root that ends with one, or is empty, needs none. -/
def text (path : Path) : String :=
  let below := "/".intercalate path.names
  if path.root.isEmpty || path.root.endsWith "/" then path.root ++ below
  else path.root ++ "/" ++ below

@[simp] theorem names_child (path : Path) (name : String) :
    (path.child name).names = path.names ++ [name] := rfl

end Path

/-- What stands at a path: a file, as something tells of it, or a directory. -/
inductive Node (α : Type) where
  | file (told : α)
  | directory

/-- The same node where something else tells of the file. -/
def Node.map {α β : Type} (f : α → β) : Node α → Node β
  | .file told => .file (f told)
  | .directory => .directory

/-- A file: the path it was made at and its number among the files made. Files made at
different paths differ, and so do those made at one path one after the other. -/
structure FileId where
  names : List String
  serial : Nat
  deriving DecidableEq

/-- What an opened path gives access to. -/
abbrev Handle : Type := Node FileId

inductive Access where
  | readOnly
  | readWrite
  deriving DecidableEq

/-- The files and directories of a device root. -/
structure Host where
  /-- Each file by its number. The first entry for a path counts. -/
  entries : List (List String × Node Nat)
  /-- Contents of every file made, also of those that no path leads to any more. -/
  files : List (FileId × Contents)
  made : Nat

namespace Host

def empty : Host := { entries := [([], .directory)], files := [], made := 0 }

def contents (host : Host) (file : FileId) : Contents :=
  (host.files.lookup file).getD (.zeros 0)

/-- What stands at `names`, its file by identity. -/
def handle? (host : Host) (names : List String) : Option Handle :=
  (host.entries.lookup names).map (Node.map (FileId.mk names))

/-- What stands at `names`, its file by contents. -/
def find? (host : Host) (names : List String) : Option (Node Contents) :=
  (host.handle? names).map (Node.map host.contents)

/-- Replaces the entry for `names`, or adds it. -/
def enter (host : Host) (names : List String) (entry : Node Nat) : Host :=
  { host with entries := (names, entry) :: host.entries.filter fun entry => entry.1 ≠ names }

/-- Replaces what stands at `names`, or adds it. A file put there is a new one. -/
def put (host : Host) (names : List String) : Node Contents → Host
  | .directory => host.enter names .directory
  | .file contents =>
    { host.enter names (.file host.made) with
      files := (⟨names, host.made⟩, contents) :: host.files
      made := host.made + 1 }

theorem find?_put (host : Host) (names : List String) (node : Node Contents) :
    (host.put names node).find? names = some node := by
  cases node <;> simp [put, enter, find?, handle?, contents, Node.map]

def above (names : List String) : List (List String) :=
  (List.range names.length).map names.take

/-- `names` as a directory, unless something stands there. -/
def ensureDirectory (host : Host) (names : List String) : Host :=
  match host.handle? names with
  | some _ => host
  | none => host.put names .directory

def create (host : Host) (names : List String) (node : Node Contents) : Host :=
  ((above names).foldl ensureDirectory host).put names node

def remove (host : Host) (names : List String) : Host :=
  { host with entries := host.entries.filter fun entry => !names.isPrefixOf entry.1 }

/-- Gives a file other contents, wherever it stands. -/
def update (host : Host) (file : FileId) (change : Contents → Contents) : Host :=
  { host with
    files := (file, change (host.contents file)) :: host.files.filter fun entry => entry.1 ≠ file }

@[simp] theorem handle?_update (host : Host) (file : FileId) (change : Contents → Contents)
    (names : List String) : (host.update file change).handle? names = host.handle? names := rfl

theorem lookup_filter_ne {α β : Type} [BEq α] [LawfulBEq α] [DecidableEq α] {key sought : α}
    (apart : sought ≠ key) : ∀ entries : List (α × β),
      (entries.filter fun entry => entry.1 ≠ key).lookup sought = entries.lookup sought
  | [] => rfl
  | (first, told) :: rest => by
    have ih := lookup_filter_ne apart rest
    by_cases same : first = key
    · have missed : (sought == key) = false := beq_false_of_ne apart
      simpa [List.lookup_cons, same, missed] using ih
    · simp only [ne_eq, decide_not] at ih
      simp [List.lookup_cons, same, ih]

/-- Only the file that is given other contents has others. -/
theorem contents_update (host : Host) (file : FileId) (change : Contents → Contents)
    (sought : FileId) :
    (host.update file change).contents sought
      = if sought = file then change (host.contents file) else host.contents sought := by
  by_cases same : sought = file
  · subst same
    simp [update, contents]
  · have apart : (sought == file) = false := by simpa using same
    rw [if_neg same, contents, contents, update, List.lookup_cons, apart, lookup_filter_ne same]

theorem find?_update (host : Host) (file : FileId) (change : Contents → Contents)
    (names : List String) :
    (host.update file change).find? names =
      (host.handle? names).map (Node.map fun sought =>
        if sought = file then change (host.contents file) else host.contents sought) := by
  simp only [find?, handle?_update, ← contents_update]

/-- Whether a file stands above `names`. -/
def belowFile (host : Host) (names : List String) : Bool :=
  (above names).any fun upper =>
    match host.handle? upper with
    | some (.file _) => true
    | _ => false

/-- What stands at `names`, or why nothing can be found there. -/
def lookup (host : Host) (names : List String) : Except IoCause Handle :=
  match host.handle? names with
  | some handle => .ok handle
  | none => .error (if host.belowFile names then .notDirectory else .missing)

/-- Opens `names`. A directory opens for reading only. -/
def openNode (host : Host) (names : List String) (access : Access) : Except IoCause Handle :=
  match host.lookup names, access with
  | .error cause, _ => .error cause
  | .ok .directory, .readWrite => .error .isDirectory
  | .ok handle, _ => .ok handle

/-- The first position that a transfer must not reach. -/
def positionBound : Nat := UInt64.size / 2

/-- The register at `offset` of what was opened. -/
def readWord (host : Host) (handle : Handle) (offset : Nat) : Except IoCause Reading :=
  if positionBound ≤ offset + 8 then .error .badOffset
  else
    match handle with
    | .file file => .ok ((host.contents file).read offset)
    | .directory => .error .isDirectory

def readText (host : Host) (names : List String) : Except IoCause String :=
  match host.openNode names .readOnly with
  | .error cause => .error cause
  | .ok .directory => .error .isDirectory
  | .ok (.file file) =>
    match (host.contents file).text? with
    | some text => .ok text
    | none => .error .notText

/-- Replaces the whole of a file that is there. -/
def writeText (host : Host) (names : List String) (text : String) : Except IoCause Host :=
  match host.openNode names .readWrite with
  | .error cause => .error cause
  | .ok .directory => .error .isDirectory
  | .ok (.file file) => .ok (host.update file fun _ => .ofText text)

/-- Names directly below `names`, in no particular order. -/
def children (host : Host) (names : List String) : List String :=
  host.entries.filterMap fun entry =>
    match entry.1.getLast? with
    | some name => if entry.1.dropLast = names then some name else none
    | none => none

def list (host : Host) (names : List String) : Except IoCause (List String) :=
  match host.lookup names with
  | .error cause => .error cause
  | .ok (.file _) => .error .notDirectory
  | .ok .directory => .ok (host.children names)

end Host
end PackagePower
