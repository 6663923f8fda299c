/-!
# Files to write to

A path is followed from directory to directory, one name after the other. Its last name may be
that of no file yet, which is then created; on the way every name has to be that of a directory.

## Main definitions

* `Logging.FileFault`: why a file cannot be opened for writing
* `Logging.Entry`, `Logging.Files`: the directories and files that there are
* `Logging.Files.fault?`: what is wrong with a path
-/

namespace AlgebraicModel.Logging

/-! ## Faults -/

inductive FileFault where
  | missing
  | noDevice
  | denied
  | notDirectory
  | isDirectory
  | nameTooLong
deriving DecidableEq, Repr

def FileFault.reason : FileFault → String
  | missing => "No such file or directory (os error 2)"
  | noDevice => "No such device or address (os error 6)"
  | denied => "Permission denied (os error 13)"
  | notDirectory => "Not a directory (os error 20)"
  | isDirectory => "Is a directory (os error 21)"
  | nameTooLong => "File name too long (os error 36)"

/-! ## Systems of files -/

/-- The names on the way from the root to a directory or a file. -/
abbrev Place := List String

inductive Entry where
  /-- A directory in which a file is created when it is opened. -/
  | directory
  /-- A directory in which no file is created, with the fault of opening one that is missing. -/
  | sealed (fault : FileFault)
  /-- Another place for a directory. -/
  | link (target : Place)
  /-- A file, with the fault of opening it if it cannot be opened. -/
  | file (fault? : Option FileFault)
deriving DecidableEq, Repr

/-- What a system of files holds apart from what is put there. -/
def standardEntries : List (Place × Entry) :=
  [["boot"], ["dev"], ["dev", "shm"], ["etc"], ["home"], ["media"], ["mnt"], ["opt"], ["root"],
    ["run"], ["run", "lock"], ["srv"], ["tmp"], ["usr"], ["usr", "bin"], ["usr", "games"],
    ["usr", "include"], ["usr", "lib"], ["usr", "lib64"], ["usr", "libexec"], ["usr", "local"],
    ["usr", "local", "bin"], ["usr", "local", "lib"], ["usr", "local", "share"], ["usr", "sbin"],
    ["usr", "share"], ["usr", "src"], ["var"], ["var", "backups"], ["var", "cache"],
    ["var", "lib"], ["var", "local"], ["var", "log"], ["var", "mail"], ["var", "opt"],
    ["var", "spool"], ["var", "tmp"]].map (·, .directory) ++
  [["proc"], ["proc", "1"], ["proc", "self"], ["proc", "self", "fd"], ["proc", "self", "net"],
    ["proc", "sys"], ["proc", "thread-self"]].map (·, .sealed .missing) ++
  [["dev", "pts"], ["sys"], ["sys", "class"], ["sys", "devices"],
    ["sys", "kernel"]].map (·, .sealed .denied) ++
  [(["bin"], .link ["usr", "bin"]), (["lib"], .link ["usr", "lib"]),
    (["lib64"], .link ["usr", "lib64"]), (["sbin"], .link ["usr", "sbin"]),
    (["var", "lock"], .link ["run", "lock"]), (["var", "run"], .link ["run"]),
    (["dev", "fd"], .link ["proc", "self", "fd"]),
    (["proc", "net"], .link ["proc", "self", "net"])] ++
  [["dev", "full"], ["dev", "null"], ["dev", "random"], ["dev", "stderr"], ["dev", "stdin"],
    ["dev", "stdout"], ["dev", "urandom"], ["dev", "zero"], ["etc", "group"], ["etc", "hostname"],
    ["etc", "hosts"], ["etc", "passwd"], ["etc", "resolv.conf"], ["etc", "shadow"],
    ["proc", "cmdline"], ["proc", "cpuinfo"], ["proc", "meminfo"], ["proc", "mounts"],
    ["proc", "self", "cmdline"], ["proc", "self", "environ"], ["proc", "self", "maps"],
    ["proc", "self", "status"], ["proc", "stat"], ["proc", "uptime"], ["proc", "version"],
    ["usr", "bin", "env"], ["usr", "bin", "ls"], ["usr", "bin", "sh"]].map (·, .file none) ++
  [(["dev", "tty"], .file (some .noDevice))]

/-- A system of files, as far as it decides where a file can be opened for writing. -/
structure Files where
  entries : List (Place × Entry) := standardEntries
  /-- Where paths that do not start at the root start. -/
  workingDirectory : Place := ["tmp"]

namespace Files

def entry? (fs : Files) (place : Place) : Option Entry :=
  fs.entries.lookup place

/-- The fault of a name that is missing in a directory. Without one it is that of a new file, which
only the last name of a path can be. -/
def absenceFault? (fs : Files) (place : Place) (name : String) (isLast : Bool) :
    Option FileFault :=
  match fs.entry? place with
  | some (.sealed fault) => if isLast then fault else some .missing
  | _ =>
    if 255 < name.utf8ByteSize then
      some .nameTooLong
    else if isLast then
      none
    else
      some .missing

/-- Why names lead from a directory to no file that can be opened for writing. Empty names come
from slashes next to each other, and a name with slashes behind it asks for a directory. -/
def faultFrom? (fs : Files) (place : Place) : List String → Option FileFault
  | [] => some .isDirectory
  | "" :: names => fs.faultFrom? place names
  | "." :: names => fs.faultFrom? place names
  | ".." :: names => fs.faultFrom? place.dropLast names
  | name :: names =>
    if !names.isEmpty && names.all String.isEmpty then
      some .isDirectory
    else
      match fs.entry? (place ++ [name]) with
      | some .directory | some (.sealed _) => fs.faultFrom? (place ++ [name]) names
      | some (.link target) => fs.faultFrom? target names
      | some (.file fault?) => if names.isEmpty then fault? else some .notDirectory
      | none => fs.absenceFault? place name names.isEmpty

/-- Why a file cannot be opened for writing. -/
def fault? (fs : Files) (path : String) : Option FileFault :=
  if path.isEmpty then
    some .missing
  else if 4096 ≤ path.utf8ByteSize then
    some .nameTooLong
  else
    fs.faultFrom? (if path.startsWith "/" then [] else fs.workingDirectory) (path.splitOn "/")

end Files

end AlgebraicModel.Logging
