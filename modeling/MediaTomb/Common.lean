/-
  The constants of `common.h` and the exceptions the storage layer throws.

  The classes differ only in what a handler can tell apart: an object that is not in the table is
  an `ObjectNotFoundException`, a failed query a `StorageException`, everything else a plain
  `Exception`.  All carry the message text.
-/
import MediaTomb.Tools

namespace MediaTomb

def cdsIdBlackhole : Int := -1

def cdsIdRoot : Int := 0

def cdsIdFsRoot : Int := 1

/-- `INVALID_OBJECT_ID`. -/
def invalidObjectID : Int := -333

/-- `INVALID_OBJECT_ID_2`. -/
def invalidObjectID2 : Int := -666

/-- `IS_FORBIDDEN_CDS_ID`. -/
def isForbiddenCdsID (id : Int) : Bool := id ≤ cdsIdFsRoot

inductive Exception where
  | exception (message : Str)
  | storage (message : Str)
  | objectNotFound (message : Str)
  deriving DecidableEq, Repr

def Exception.message : Exception → Str
  | .exception m => m
  | .storage m => m
  | .objectNotFound m => m

/-- Does a `catch (ObjectNotFoundException)` see it? -/
def Exception.isObjectNotFound : Exception → Bool
  | .objectNotFound _ => true
  | _ => false

/-! ## Location prefixes (`sql_storage.cc`) -/

def locDirPrefix : UInt8 := 'D'.toUInt8

def locFilePrefix : UInt8 := 'F'.toUInt8

def locVirtPrefix : UInt8 := 'V'.toUInt8

def locIllegalPrefix : UInt8 := 'X'.toUInt8

/-- `addLocationPrefix`; a nil path adds nothing. -/
def addLocationPrefix (pfx : UInt8) (path : Option Str) : Str := pfx :: path.getD []

/-- `stripLocationPrefix(prefix, path)`. -/
def stripLocationPrefix : Option Str → UInt8 × Option Str
  | none => (locIllegalPrefix, none)
  | some [] => (0, none)
  | some (pfx :: path) => (pfx, some path)

end MediaTomb
