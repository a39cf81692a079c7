import LoxFront.Token.Kind

/-!
# Diagnostics

A `Fault` is a cause, a `Diagnostic` ties one to the line where it was found. The
wording is in one place, `Fault.message`.

Faults compare by cause. Two failures of input or output are equal when they are of
one kind, whatever their texts, so `==` is not equality of records.
-/

namespace LoxFront

/-- What kind of failure the system reports for a file or a stream. -/
inductive IoKind where
  | notFound | permissionDenied | connectionRefused | connectionReset | hostUnreachable
  | networkUnreachable | connectionAborted | notConnected | addrInUse | addrNotAvailable
  | networkDown | brokenPipe | alreadyExists | wouldBlock | notADirectory | isADirectory
  | directoryNotEmpty | readOnlyFilesystem | filesystemLoop | staleNetworkFileHandle
  | invalidInput | invalidData | timedOut | writeZero | storageFull | notSeekable | quotaExceeded
  | fileTooLarge | resourceBusy | executableFileBusy | deadlock | crossesDevices | tooManyLinks
  | invalidFilename | argumentListTooLong | interrupted | unsupported | unexpectedEof
  | outOfMemory | inProgress | other | uncategorized
deriving DecidableEq, Repr

/-- Everything that can be wrong with a source, a tree or a file. -/
inductive Fault where
  | unexpectedCharacter (c : Char)
  | unterminatedString
  | invalidPrefixOperator (kind : Kind)
  | io (kind : IoKind) (text : String)
deriving DecidableEq, Repr

structure Diagnostic where
  line : Nat
  fault : Fault
deriving DecidableEq, Repr

namespace IoKind

def all : List IoKind :=
  [notFound, permissionDenied, connectionRefused, connectionReset, hostUnreachable,
   networkUnreachable, connectionAborted, notConnected, addrInUse, addrNotAvailable, networkDown,
   brokenPipe, alreadyExists, wouldBlock, notADirectory, isADirectory, directoryNotEmpty,
   readOnlyFilesystem, filesystemLoop, staleNetworkFileHandle, invalidInput, invalidData,
   timedOut, writeZero, storageFull, notSeekable, quotaExceeded, fileTooLarge, resourceBusy,
   executableFileBusy, deadlock, crossesDevices, tooManyLinks, invalidFilename,
   argumentListTooLong, interrupted, unsupported, unexpectedEof, outOfMemory, inProgress, other,
   uncategorized]

def name : IoKind → String
  | notFound => "NotFound"
  | permissionDenied => "PermissionDenied"
  | connectionRefused => "ConnectionRefused"
  | connectionReset => "ConnectionReset"
  | hostUnreachable => "HostUnreachable"
  | networkUnreachable => "NetworkUnreachable"
  | connectionAborted => "ConnectionAborted"
  | notConnected => "NotConnected"
  | addrInUse => "AddrInUse"
  | addrNotAvailable => "AddrNotAvailable"
  | networkDown => "NetworkDown"
  | brokenPipe => "BrokenPipe"
  | alreadyExists => "AlreadyExists"
  | wouldBlock => "WouldBlock"
  | notADirectory => "NotADirectory"
  | isADirectory => "IsADirectory"
  | directoryNotEmpty => "DirectoryNotEmpty"
  | readOnlyFilesystem => "ReadOnlyFilesystem"
  | filesystemLoop => "FilesystemLoop"
  | staleNetworkFileHandle => "StaleNetworkFileHandle"
  | invalidInput => "InvalidInput"
  | invalidData => "InvalidData"
  | timedOut => "TimedOut"
  | writeZero => "WriteZero"
  | storageFull => "StorageFull"
  | notSeekable => "NotSeekable"
  | quotaExceeded => "QuotaExceeded"
  | fileTooLarge => "FileTooLarge"
  | resourceBusy => "ResourceBusy"
  | executableFileBusy => "ExecutableFileBusy"
  | deadlock => "Deadlock"
  | crossesDevices => "CrossesDevices"
  | tooManyLinks => "TooManyLinks"
  | invalidFilename => "InvalidFilename"
  | argumentListTooLong => "ArgumentListTooLong"
  | interrupted => "Interrupted"
  | unsupported => "Unsupported"
  | unexpectedEof => "UnexpectedEof"
  | outOfMemory => "OutOfMemory"
  | inProgress => "InProgress"
  | other => "Other"
  | uncategorized => "Uncategorized"

def ofName? (name : String) : Option IoKind := all.find? fun kind => kind.name = name

@[simp] theorem ofName?_name (kind : IoKind) : ofName? kind.name = some kind := by
  cases kind <;> decide

end IoKind

namespace Fault

/-- The text of a fault; a failure of the system brings its own. -/
def message : Fault → String
  | unexpectedCharacter _ => "Unexpected character."
  | unterminatedString => "Unterminated string."
  | invalidPrefixOperator kind => "`" ++ kind.name ++ "` is not a prefix operator"
  | io _ text => text

/-- Faults are equal when their causes are: of an I/O failure only the kind counts. -/
instance : BEq Fault where
  beq
    | unexpectedCharacter c, unexpectedCharacter d => c == d
    | unterminatedString, unterminatedString => true
    | invalidPrefixOperator k, invalidPrefixOperator l => k == l
    | io k _, io l _ => k == l
    | _, _ => false

@[simp] theorem io_beq_io (k l : IoKind) (s t : String) : (io k s == io l t) = (k == l) := rfl

end Fault

namespace Diagnostic

def message (d : Diagnostic) : String := d.fault.message

/-- **How a diagnostic is shown**, on a line of its own. -/
def display (d : Diagnostic) : String :=
  "[line " ++ toString d.line ++ "] Error: " ++ d.message

instance : BEq Diagnostic where
  beq d e := d.line == e.line && d.fault == e.fault

theorem beq_def (d e : Diagnostic) : (d == e) = (d.line == e.line && d.fault == e.fault) := rfl

end Diagnostic

end LoxFront
