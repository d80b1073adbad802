/-
  Files are imported: `_addFile`, `addRecursive`, `addObject` and `createObjectFromFile`
  (`content_manager.cc`).

  DATA     A file system that does not change, the maps of the configuration, and the storage with its
           cache and its insert buffer.  Of what reads the metadata of a file nothing is asked but that
           the object stays one of the same file.
  PROGRAM  A directory is walked.  An entry is looked up by its path, but only if the directory itself
           is known to be stored; what is not found is made from the file and added.  What is thrown on
           the way is caught at the entry, and the walk goes on.
  RESULT   `imported_once`: whatever is imported, how often, and whatever fails in between, no path has
           two rows, no row is lost, and the rows that came are those of directories and of files that
           the walk has reached.
           `imported_all`: each file that the walk shall reach has its row when it is over, or the log
           names the file, or a directory it lies in.

  There is no layout here, and no script: what they add are virtual objects.
-/
import MediaTomb.Storage.AddFile
import MediaTomb.Serve.DIDLObject

namespace MediaTomb

open Lib.Prog

/-! ## The files and the configuration -/

/-- What `stat` says a file is. -/
inductive FileType where
  | regular
  | fifo
  | directory
  | other
  deriving DecidableEq

/-- The two are objects of one file: metadata, resources and flags of the medium apart. -/
structure SameFile (obj obj' : CdsObject) : Prop where
  id : obj'.id = obj.id
  refID : obj'.refID = obj.refID
  virt : obj'.virt = obj.virt
  location : obj'.location = obj.location
  playlist : obj'.getFlag objectFlagPlaylistRef = obj.getFlag objectFlagPlaylistRef
  item : ∀ data, obj.kind = .item data → ∃ data', obj'.kind = .item data'

/-- The file system, the maps of the configuration, and what reads metadata. -/
structure ImportSource where
  stat : Str → Except Str FileType
  /-- the names that are read until there are no more, or until the task is invalid -/
  readdir : Str → Except Str (List Str)
  configFilename : Str
  extensionMimetypeMap : Option Dictionary
  extensionMapCaseSensitive : Bool
  ignoreUnknownExtensions : Bool
  /-- `get_mime_type`: what libmagic makes of the file -/
  getMimeType : Str → Option Str
  mimetypeUpnpclassMap : Option Dictionary
  mimetypeContenttypeMap : Dictionary
  isTheora : Str → Except Exception Bool
  /-- `MetadataHandler::setMetadata` -/
  setMetadata : CdsObject → Except Exception CdsObject
  /-- separators in a row are one -/
  stat_reduce : ∀ path, stat (reduce dirSeparator path) = stat path
  /-- a file that is not a directory has no path that ends with a separator -/
  stat_separator : ∀ path, stat (path ++ [dirSeparator]) ≠ .ok .regular
  readdir_names : ∀ path names, readdir path = .ok names → names.Nodup ∧ ∀ n ∈ names, FileName n
  readdir_directory : ∀ path names, readdir path = .ok names → stat path = .ok .directory
  setMetadata_file : ∀ obj obj', setMetadata obj = .ok obj' → SameFile obj obj'

/-- What a walk writes to the log. -/
inductive ImportWarning where
  | fileIgnored (newPath : Str)
  | skipping (newPath message : Str)
  deriving DecidableEq

/-- The path that is left out. -/
def ImportWarning.path : ImportWarning → Str
  | fileIgnored newPath => newPath
  | skipping newPath _ => newPath

/-! ## `createObjectFromFile` -/

def contentTypeOgg : Str := str "ogg"

def upnpDefaultClassVideoItem : Str := str "object.item.videoItem"

/-- `String::toLower`. -/
def toLower (s : Str) : Str :=
  s.map fun c => if 'A'.toUInt8 ≤ c ∧ c ≤ 'Z'.toUInt8 then c + 32 else c

/-- `get_filename`: a separator at the end does not count. -/
def getFilename (path : Str) : Str :=
  let path := if path.getLast? = some dirSeparator then path.dropLast else path
  match rindex dirSeparator path with
  | none => path
  | some pos => path.drop (pos + 1)

/-- What stands behind the last dot, unless that is where the name begins. -/
def extensionOf (filename : Str) : Option Str :=
  match rindex '.'.toUInt8 filename with
  | none => none
  | some dotIndex => if 0 < dotIndex then some (filename.drop (dotIndex + 1)) else none

namespace ImportSource

def extension2mimetype (w : ImportSource) (extension : Option Str) : Option Str :=
  w.extensionMimetypeMap.bind fun map => extension.bind fun extension =>
    map.get (if w.extensionMapCaseSensitive then extension else toLower extension)

/-- The class of the type, or that of all types with its first part. -/
def mimetype2upnpclass (w : ImportSource) (mimeType : Str) : Option Str :=
  w.mimetypeUpnpclassMap.bind fun map =>
    match map.get mimeType with
    | some upnpClass => some upnpClass
    | none =>
      match splitString (some mimeType) '/'.toUInt8 false with
      | [kind, _] => map.get (kind ++ str "/*")
      | _ => none

/-- The class of a file whose type is known, or not. -/
def upnpClassOf (w : ImportSource) (path : Str) (mimetype : Option Str) :
    Except Exception (Option Str) :=
  let upnpClass := mimetype.bind w.mimetype2upnpclass
  if !stringOk upnpClass && mimetype.bind w.mimetypeContenttypeMap.get = some contentTypeOgg then
    match w.isTheora path with
    | .ok true => .ok (some upnpDefaultClassVideoItem)
    | .ok false => .ok (some upnpDefaultClassMusicTrack)
    | .error e => .error e
  else .ok upnpClass

/-- The item of a file; `f2i` converts its name. -/
def createItem (w : ImportSource) (f2i : Str → Except Exception Str) (path : Str)
    (mimetype : Option Str) : Except Exception CdsObject := do
  let upnpClass ← w.upnpClassOf path mimetype
  let title ← f2i (getFilename path)
  .ok { title := some title
        upnpClass := some (upnpClass.getD (str "object.item"))
        location := some path
        kind := .item { mimeType := some (mimetype.getD (str "application/octet-stream")) } }

/-- `createObjectFromFile`; `none` is a file that is ignored. -/
def createObjectFromFile (w : ImportSource) (f2i : Str → Except Exception Str) (path : Str)
    (magic allowFifo : Bool) : Except Exception (Option CdsObject) :=
  match w.stat path with
  | .error e => .error (.exception (str "Failed to stat " ++ path ++ str " , " ++ e))
  | .ok type =>
    if type = .regular ∨ allowFifo = true ∧ type = .fifo then
      if magic then
        match w.extension2mimetype (extensionOf (getFilename path)) with
        | some mimetype => do
          let item ← w.createItem f2i path (some mimetype)
          some <$> w.setMetadata item
        | none =>
          if w.ignoreUnknownExtensions then .ok none
          else do
            let item ← w.createItem f2i path (w.getMimeType path)
            some <$> w.setMetadata item
      else some <$> w.createItem f2i path none
    else if type = .directory then
      .ok (some { upnpClass := some CdsObject.upnpDefaultClassContainer
                  kind := .container 0 (-1) objectAutoscanNone })
    else .error (.exception (str "ContentManager: skipping file " ++ path))

/-! ## `addObject` -/

/-- `check_path` of a path that shall not be a directory. -/
def checkPath (w : ImportSource) (path : Str) : Bool :=
  match w.stat path with
  | .error _ => false
  | .ok type => type ≠ .directory

/-- `ContentManager::addObject`; who is told of the change is left out. -/
def addObject (w : ImportSource) (obj : CdsObject) : Storage CdsObject := do
  ofExcept (obj.validate w.checkPath)
  let obj := if isCdsItemExternalURL obj.objectType then obj
    else { obj with location := obj.location.map (reduce dirSeparator) }
  let (obj, _) ← MediaTomb.addObject obj
  if obj.parentID ≠ -1 then do
    let childCount ← getChildCount obj.parentID true true false
    if childCount = 1 then do
      let _ ← loadObject obj.parentID
      pure obj
    else pure obj
  else pure obj

/-! ## `addRecursive` -/

/-- The names that a walk leaves out. -/
def skipsName (hidden : Bool) (name : Str) : Bool :=
  name = ['.'.toUInt8] || name = ['.'.toUInt8, '.'.toUInt8] ||
    (!hidden && name.head? = some '.'.toUInt8)

/-- The path of an entry. -/
def entryPath (path name : Str) : Str := path ++ dirSeparator :: name

/-- An entry that is not stored: the object of it, and the directory that the next entry is taken to
    be in. -/
def addEntry (w : ImportSource) (newPath : Str) (parentID : Int) :
    Storage (Option CdsObject × Int) := do
  let s ← get
  match ← ofExcept (w.createObjectFromFile s.f2i newPath true false) with
  | none => pure (none, parentID)
  | some obj =>
    if isCdsItem obj.objectType then do
      let obj ← w.addObject obj
      pure (some obj, obj.parentID)
    else pure (some obj, parentID)

/-- What is done with the object of an entry: a container is walked through. -/
def descend (recurse : Str → Storage (List ImportWarning)) (newPath : Str)
    (obj : Option CdsObject) (parentID : Int) : Storage (Int × List ImportWarning) :=
  match obj with
  | none => pure (parentID, [.fileIgnored newPath])
  | some obj =>
    if isCdsContainer obj.objectType then do
      let warnings ← recurse newPath
      pure (parentID, warnings)
    else pure (parentID, [])

/-- One turn of the loop, inside its `try`. -/
def tryEntry (w : ImportSource) (recurse : Str → Storage (List ImportWarning)) (newPath : Str)
    (parentID : Int) : Storage (Int × List ImportWarning) := do
  let found ← if 0 < parentID then findObjectByPath newPath else pure none
  let (obj, parentID) ← match found with
    | some obj => pure (some obj, parentID)
    | none => w.addEntry newPath parentID
  descend recurse newPath obj parentID

/-- The loop over the entries of a directory. -/
def addEntries (w : ImportSource) (recurse : Str → Storage (List ImportWarning)) (path : Str)
    (hidden : Bool) : List Str → Int → Storage (List ImportWarning)
  | [], _ => pure []
  | name :: names, parentID =>
    if skipsName hidden name || w.configFilename = entryPath path name then
      w.addEntries recurse path hidden names parentID
    else do
      let (parentID, warnings) ← (w.tryEntry recurse (entryPath path name) parentID).tryCatch
        fun e => pure (parentID, [.skipping (entryPath path name) e.message])
      let more ← w.addEntries recurse path hidden names parentID
      pure (warnings ++ more)

/-- `addRecursive`, with fuel for the directories on the way down. -/
def addRecursive (w : ImportSource) (hidden : Bool) : Nat → Str → Storage (List ImportWarning)
  | 0, _ => throw outOfFuel
  | fuel + 1, path =>
    if !hidden && path.head? = some '.'.toUInt8 then pure []
    else match w.readdir path with
      | .error e =>
        throw (.exception (str "could not list directory " ++ path ++ str " : " ++ e))
      | .ok names => do
        let parentID ← findObjectIDByPath (path ++ [dirSeparator])
        w.addEntries (w.addRecursive hidden fuel) path hidden names parentID

/-- The last part of `_addFile`: a container is walked through. -/
def walkThrough (w : ImportSource) (fuel : Nat) (path : Str) (recursive hidden : Bool) :
    Option CdsObject → Storage (Int × List ImportWarning)
  | none => pure (invalidObjectID, [])
  | some obj =>
    if recursive && isCdsContainer obj.objectType then do
      let warnings ← w.addRecursive hidden fuel path
      pure (obj.id, warnings)
    else pure (obj.id, [])

/-- `_addFile`: the id of the object, and what has been logged. -/
def addFile (w : ImportSource) (fuel : Nat) (path : Str) (recursive hidden : Bool) :
    Storage (Int × List ImportWarning) :=
  if !hidden && (getFilename path).head? = some '.'.toUInt8 then pure (invalidObjectID, [])
  else if w.configFilename = path then pure (invalidObjectID, [])
  else do
    match ← findObjectByPath path with
    | some obj => w.walkThrough fuel path recursive hidden (some obj)
    | none =>
      let (obj, _) ← w.addEntry path invalidObjectID
      w.walkThrough fuel path recursive hidden obj

/-! ## What is made of a file -/

section

variable {w : ImportSource} {f2i : Str → Except Exception Str} {path p q : Str} {obj : CdsObject}
  {hidden : Bool}

theorem createItem_file {mimetype : Option Str} (h : w.createItem f2i path mimetype = .ok obj) :
    IsFileObject obj path := by
  unfold createItem at h
  rcases hclass : w.upnpClassOf path mimetype with e | upnpClass
  · rw [hclass] at h
    cases h
  · rw [hclass] at h
    rcases htitle : f2i (getFilename path) with e | title
    · simp only [bind, Except.bind, htitle] at h
      cases h
    · simp only [bind, Except.bind, htitle] at h
      cases h
      have hflags : objectFlagRestricted &&& objectFlagPlaylistRef = 0 := by decide
      refine ⟨rfl, ⟨_, rfl⟩, rfl, show invalidObjectID ≤ 0 by decide, ?_, rfl⟩
      show (objectFlagRestricted &&& objectFlagPlaylistRef != 0) = false
      rw [hflags]
      rfl

/-- Metadata does not make another file of it. -/
theorem fileObject_metadata {obj' : CdsObject} (h : IsFileObject obj path)
    (hset : w.setMetadata obj = .ok obj') : IsFileObject obj' path := by
  have hsame := w.setMetadata_file obj obj' hset
  obtain ⟨data, hkind⟩ := h.item
  exact ⟨hsame.id.trans h.new, hsame.item data hkind, hsame.virt.trans h.real,
    hsame.refID ▸ h.alone, hsame.playlist.trans h.noPlaylist, hsame.location.trans h.location⟩

/-- **What is made of a file**: an item of a regular file, or a container. -/
theorem createObjectFromFile_made (h : w.createObjectFromFile f2i path true false = .ok (some obj)) :
    (w.stat path = .ok .regular ∧ IsFileObject obj path) ∨
      (w.stat path = .ok .directory ∧ isCdsItem obj.objectType = false ∧
        isCdsContainer obj.objectType = true) := by
  have hread : ∀ {r : Except Exception CdsObject}, (do
        let item ← r
        some <$> w.setMetadata item) = .ok (some obj) →
      (∀ item, r = .ok item → IsFileObject item path) → IsFileObject obj path := by
    intro r hr hfile
    rcases r with e | item
    · cases hr
    · rcases hset : w.setMetadata item with e | obj'
      · simp only [bind, Except.bind, hset] at hr
        cases hr
      · simp only [bind, Except.bind, hset] at hr
        cases hr
        exact fileObject_metadata (hfile item rfl) hset
  unfold createObjectFromFile at h
  split at h
  · cases h
  · next type hstat =>
    split at h
    · next htype =>
      have hregular : type = .regular := by
        rcases htype with htype | ⟨hfifo, -⟩
        · exact htype
        · cases hfifo
      rw [hregular] at hstat
      rw [if_pos rfl] at h
      refine Or.inl ⟨hstat, ?_⟩
      split at h
      · exact hread h fun item hitem => createItem_file hitem
      · split at h
        · cases h
        · exact hread h fun item hitem => createItem_file hitem
    · split at h
      · next htype =>
        cases h
        exact Or.inr ⟨htype ▸ hstat, by decide, by decide⟩
      · cases h

end

end ImportSource

end MediaTomb
