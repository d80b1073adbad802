/-
  `TranscodeExternalHandler::open` and its temporary fifos (`transcode_ext_handler.cc`).

  Up to THREE fifos are created on the way:

    * `url`        through which a thread passes the remote content on to the transcoder,
    * `dvd`        the same for the content of a DVD image,
    * `transcoder` through which the transcoder's output is read.

  Nobody removes them by name when `open` throws, except the two `catch` blocks: they go with the
  OBJECTS that have them.  A `ProcessIOHandler` unlinks its fifo in its destructor, the executor of
  the transcoder the files it has been told of.  So the state keeps, beside the fifos that exist,
  which objects exist and what they remove.
-/
import MediaTomb.Serve.CdsResourceManager

namespace MediaTomb

open Lib Lib.Prog

def objectFlagDvdImage : UInt32 := 0x100

/-! ## DVD parameters (`metadata/dvd_handler.cc`) -/

/-- `renderKey(DVD_Title)`. -/
def dvdTitle : Str := str "dvdt"

/-- `renderKey(DVD_Chapter)`. -/
def dvdChapter : Str := str "dvdch"

/-- `renderKey(DVD_AudioStreamID)`. -/
def dvdAudioStreamID : Str := str "dvdi"

/-- A parameter that has to be a number from zero on. -/
def dvdParameter (parameters : Dictionary) (key : Str) (missing invalid : String) :
    Except Exception Int :=
  if !stringOk (parameters.get key) then .error (.exception (str missing))
  else if toInt (parameters.get key) < 0 then .error (.exception (str invalid))
  else .ok (toInt (parameters.get key))

/-- Title, chapter and audio stream. -/
def dvdParameters (parameters : Dictionary) : Except Exception (Int × Int × Int) := do
  let title ← dvdParameter parameters dvdTitle
    "DVD Image requested but title parameter is missing!" "DVD Image - requested invalid title!"
  let chapter ← dvdParameter parameters dvdChapter
    "DVD Image requested but chapter parameter is missing!"
    "DVD Image - requested invalid chapter!"
  let audioTrack ← dvdParameter parameters dvdAudioStreamID
    "DVD Image requested but audio track parameter is missing!"
    "DVD Image - requested invalid audio stream ID!"
  return (title, chapter, audioTrack)

/-! ## What a call works with -/

/-- The part of a transcoding profile that `open` looks at. -/
structure ExternalProfile where
  targetMimeType : Option Str
  command : Str
  acceptURL : Bool := true
  bufferSize : Nat
  bufferChunkSize : Nat
  bufferInitialFillSize : Nat

inductive Fifo where
  | url
  | dvd
  | transcoder
  deriving DecidableEq

/-- How the build, the configuration and the system answer; `.error` is an exception. -/
structure TranscodeSystem where
  /-- `HAVE_CURL` -/
  haveCurl : Bool := true
  /-- `HAVE_LIBDVDNAV` -/
  haveDvdnav : Bool := true
  /-- The content types of mime types. -/
  mappings : Dictionary := .empty
  /-- `CURL_MAX_WRITE_SIZE` -/
  curlMaxWriteSize : Nat := 16384
  curlBufferSize : Nat := 262144
  curlFillSize : Nat := 0
  mkfifo : Fifo → Bool := fun _ => true
  /-- `curl_easy_init`, and the buffer for the content -/
  openCurl : Except Exception Unit := .ok ()
  /-- the buffer, and `dvdnav` for the location, title and chapter -/
  dvdIOHandler : Option Str → Int → Int → Except Exception Unit := fun _ _ _ => .ok ()
  pipe : Bool := true
  /-- the second pipe -/
  remuxPipe : Bool := true
  checkPath : Str → Bool := fun _ => true
  findInPath : Str → Option Str := fun exec => some (str "/usr/bin/" ++ exec)
  /-- `.error` with the text of the error -/
  isExecutable : Str → Except Str Unit := fun _ => .ok ()
  /-- does `fork` make a process? -/
  fork : Bool := true
  /-- is the transcoder alive when the handler is built? -/
  aliveWhenBuilt : Bool := true
  /-- is the transcoder alive when the handler is opened? -/
  aliveWhenOpened : Bool := true
  /-- opening the fifo: `some true` for `ENXIO`, `some false` for another error -/
  openFifo : Option Bool := none
  malloc : Bool := true
  playHook : Except Exception Unit := .ok ()

/-- The fifos in the temporary directory, and the objects that remove some. -/
structure TempDir where
  fifos : List Fifo := []
  /-- the reader fifo that `location` names -/
  location : Option Fifo := none
  /-- `proc_list`: the fifos that its chainers' handlers unlink -/
  procList : List Fifo := []
  /-- `main_proc`: the files it unlinks -/
  mainProc : Option (List Fifo) := none
  /-- is there the handler of the transcoder's fifo? -/
  ioHandler : Bool := false

namespace TempDir

def unlink (s : TempDir) (f : Fifo) : TempDir := { s with fifos := s.fifos.filter (· ≠ f) }

/-- `proc_list` is replaced; the objects that were in it are destroyed. -/
def setProcList (s : TempDir) (fs : List Fifo) : TempDir :=
  { s with fifos := s.fifos.filter (· ∉ s.procList), procList := fs }

/-- **The fifos that stay** when all the objects are destroyed. -/
def remaining (s : TempDir) : List Fifo :=
  s.fifos.filter fun f =>
    f ∉ s.procList ∧ f ∉ s.mainProc.getD [] ∧ ¬ (s.ioHandler = true ∧ f = .transcoder)

end TempDir

namespace TranscodeExternalHandler

/-! ## `open` -/

abbrev Call (α : Type) : Type 1 := Prog TempDir Exception α

/-- `IS_CDS_ITEM_INTERNAL_URL` or `IS_CDS_ITEM_EXTERNAL_URL`. -/
def isURL (obj : CdsObject) : Bool :=
  isCdsItemInternalURL obj.objectType || isCdsItemExternalURL obj.objectType

/-- A mime type with the attributes that PCM data needs. -/
def pcmMimeType (resource : CdsResource) (mimeType : Option Str) : Option Str :=
  let freq := resource.attributes.get (str "sampleFrequency")
  let nrch := resource.attributes.get (str "nrAudioChannels")
  let rated := if stringOk freq then
    strAppend (strAppend mimeType (some (str ";rate="))) freq else mimeType
  if stringOk nrch then strAppend (strAppend rated (some (str ";channels="))) nrch else rated

/-- The mime type of what a profile makes of an item. -/
def transcodedMimeType (mappings : Dictionary) (targetMimeType : Option Str) (item : CdsObject) :
    Except Exception (Option Str) :=
  if targetMimeType.bind mappings.get = some (str "pcm") then do
    let resource ← getResource item.resources 0
    return pcmMimeType resource targetMimeType
  else .ok targetMimeType

/-- The content type that `open` reports. -/
def contentType (sys : TranscodeSystem) (profile : ExternalProfile) (obj : CdsObject) :
    Except Exception (Option Str) :=
  if isCdsItem obj.objectType then transcodedMimeType sys.mappings profile.targetMimeType obj
  else .ok profile.targetMimeType

/-- Is the remote content read by a thread? -/
def readsURL (profile : ExternalProfile) (obj : CdsObject) : Bool :=
  isURL obj && !profile.acceptURL

/-- Is the DVD image read by a thread? -/
def readsDVD (sys : TranscodeSystem) (obj : CdsObject) : Bool :=
  sys.haveDvdnav && obj.getFlag objectFlagDvdImage

/-- The constructor of `IOHandlerBufferHelper`. -/
def bufferHelper (bufSize initialFillSize : Nat) : Except Exception Unit :=
  if bufSize ≤ 0 then .error (.exception (str "bufSize must be positive"))
  else if bufSize < initialFillSize then
    .error (.exception (str ("initialFillSize must be non-negative and must be lesser than or " ++
      "equal to the size of the buffer")))
  else .ok ()

/-- The constructor of `CurlIOHandler`. -/
def curlIOHandler (sys : TranscodeSystem) (url : Option Str) : Except Exception Unit := do
  bufferHelper sys.curlBufferSize sys.curlFillSize
  if !stringOk url then
    .error (.exception (str "URL has not been set correctly"))
  else if sys.curlBufferSize < sys.curlMaxWriteSize then
    .error (.exception (str "bufSize must be at least CURL_MAX_WRITE_SIZE(" ++
      fromInt sys.curlMaxWriteSize ++ str ")"))
  else .ok ()

/-- `mkfifo` for a reader thread. -/
def readerFifo (sys : TranscodeSystem) (f : Fifo) : Call Unit :=
  if sys.mkfifo f then
    Prog.modify fun s => { s with location := some f, fifos := f :: s.fifos }
  else Prog.throw (.exception (str "Could not create reader fifo!\n"))

/-- Something that unlinks `f` when `m` throws: a local handler that is destroyed, or a `catch`. -/
def unlinkOnThrow (f : Fifo) (m : Call Unit) : Call Unit :=
  m.tryCatch fun ex => Prog.modify (·.unlink f) >>= fun _ => Prog.throw ex

/-- The reader thread for a URL.  The chainer opens the handler it reads from. -/
def readURL (sys : TranscodeSystem) (url : Option Str) : Call Unit :=
  if !sys.haveCurl then
    Prog.throw (.exception (str ("MediaTomb was compiled without libcurl support," ++
      "data proxying is not available")))
  else do
    readerFifo sys .url
    unlinkOnThrow .url do
      Prog.ofExcept (curlIOHandler sys url)
      unlinkOnThrow .url (Prog.ofExcept sys.openCurl)
      Prog.modify (·.setProcList [.url])

/-- The DVD parameters of the first resource. -/
def resourceParameters (obj : CdsObject) : Except Exception (Int × Int × Int) := do
  let resource ← getResource obj.resources 0
  dvdParameters resource.parameters

/-- The pipes of the DVD reader. -/
def dvdPipes (sys : TranscodeSystem) : Except Exception Unit :=
  if !sys.pipe then .error (.exception (str "Failed to create DVD input pipe!"))
  else if !sys.remuxPipe then .error (.exception (str "Failed to create remux output pipe!"))
  else .ok ()

/-- The reader thread for a DVD image.  With two pipes, the chainers and the remux processor have
    nothing to throw for. -/
def readDVD (sys : TranscodeSystem) (obj : CdsObject) : Call Unit := do
  readerFifo sys .dvd
  unlinkOnThrow .dvd do
    let (title, chapter, _) ← Prog.ofExcept (resourceParameters obj)
    Prog.ofExcept (sys.dvdIOHandler obj.location title chapter)
    Prog.ofExcept (dvdPipes sys)
    Prog.modify (·.setProcList [.dvd])

/-- The threads that an object needs. -/
def readers (sys : TranscodeSystem) (profile : ExternalProfile) (location : Option Str)
    (obj : CdsObject) : Call Unit :=
  (if readsURL profile obj then readURL sys location else pure ()) >>= fun _ =>
    if readsDVD sys obj then readDVD sys obj else pure ()

/-- Is the transcoder there? -/
def findTranscoder (sys : TranscodeSystem) (command : Str) : Except Exception Unit := do
  let check ←
    if (str "/").isPrefixOf command then
      if !sys.checkPath command then
        .error (.exception (str "Could not find transcoder: " ++ command))
      else pure command
    else
      match sys.findInPath command with
      | some (c :: check) => pure (c :: check)
      | _ => .error (.exception (str "Could not find transcoder " ++ command ++ str " in $PATH"))
  match sys.isExecutable check with
  | .error err =>
    .error (.exception (str "Transcoder " ++ command ++ str " is not executable: " ++ err))
  | .ok () => .ok ()

/-- `mkfifo` for the transcoder's output. -/
def transcoderFifo (sys : TranscodeSystem) : Call Unit :=
  if sys.mkfifo .transcoder then Prog.modify fun s => { s with fifos := .transcoder :: s.fifos }
  else Prog.throw (.exception (str "Could not create fifo!\n"))

/-- The transcoder is launched, and then told what to remove. -/
def launch (sys : TranscodeSystem) (profile : ExternalProfile) (obj : CdsObject) : Call Unit :=
  if !sys.fork then
    Prog.throw (.exception (str "Failed to launch process " ++ profile.command))
  else
    Prog.modify fun s => { s with
      mainProc := some (.transcoder ::
        ((if readsURL profile obj then s.location.toList else []) ++
          if readsDVD sys obj then s.location.toList else [])) }

/-- The constructor of `ProcessIOHandler`. -/
def processIOHandler (sys : TranscodeSystem) : Call Unit :=
  if !sys.aliveWhenBuilt then Prog.throw (.exception (str "process terminated early"))
  else Prog.modify fun s => { s with ioHandler := true }

/-- The constructor of `BufferedIOHandler`. -/
def bufferedIOHandler (profile : ExternalProfile) : Except Exception Unit := do
  bufferHelper profile.bufferSize profile.bufferInitialFillSize
  if profile.bufferChunkSize ≤ 0 then
    .error (.exception (str "maxChunkSize must be positive"))
  else .ok ()

/-- `open` of the handlers.  An error other than `ENXIO` unlinks the fifo at once. -/
def openHandler (sys : TranscodeSystem) : Call Unit :=
  if !sys.aliveWhenOpened then Prog.throw (.exception (str "process terminated early"))
  else
    match sys.openFifo with
    | some true => Prog.throw (.exception (str "open failed: "))
    | some false =>
      Prog.modify (·.unlink .transcoder) >>= fun _ =>
        Prog.throw (.exception (str "open: failed to open: "))
    | none =>
      if !sys.malloc then
        Prog.throw (.exception (str "Failed to allocate memory for transcoding buffer!"))
      else pure ()

/-- Up to the transcoder's fifo. -/
def prepare (sys : TranscodeSystem) (profile : ExternalProfile) (location : Option Str)
    (obj : CdsObject) : Call (Option Str) := do
  let mimeType ← Prog.ofExcept (contentType sys profile obj)
  readers sys profile location obj
  Prog.ofExcept (findTranscoder sys profile.command)
  transcoderFifo sys
  return mimeType

/-- From the handlers on. -/
def handlers (sys : TranscodeSystem) (profile : ExternalProfile) : Call Unit := do
  processIOHandler sys
  Prog.ofExcept (bufferedIOHandler profile)
  openHandler sys
  Prog.ofExcept sys.playHook

/-- `open`, with the content type that it reports. -/
def openTranscoder (sys : TranscodeSystem) (profile : Option ExternalProfile)
    (location : Option Str) (obj : CdsObject) : Call (Option Str) :=
  match profile with
  | none =>
    Prog.throw (.exception (str "Transcoding of file " ++ location.getD [] ++
      str "requested but no profile given"))
  | some profile => do
    let mimeType ← prepare sys profile location obj
    launch sys profile obj
    handlers sys profile
    return mimeType

/-! ## Who removes what -/

/-- Every fifo has an object that removes it. -/
def Owned (s : TempDir) : Prop := s.remaining = []

theorem owned_iff {s : TempDir} : Owned s ↔ ∀ f ∈ s.fifos, f ∈ s.procList ∨
    f ∈ s.mainProc.getD [] ∨ (s.ioHandler = true ∧ f = .transcoder) := by
  unfold Owned TempDir.remaining
  rw [List.filter_eq_nil_iff]
  refine forall_congr' fun f => forall_congr' fun _ => ?_
  rw [decide_eq_true_iff]
  tauto

/-- **Before the transcoder**: its fifo does not exist, nor an object that would remove it, and
    every fifo but those of `making` belongs to `proc_list`. -/
structure Reading (making : List Fifo) (s : TempDir) : Prop where
  owner : ∀ f ∈ s.fifos, f ∈ making ∨ f ∈ s.procList
  fifo : .transcoder ∉ s.fifos
  procList : .transcoder ∉ s.procList
  mainProc : s.mainProc = none
  ioHandler : s.ioHandler = false

section

variable {sys : TranscodeSystem} {profile : ExternalProfile} {location : Option Str}
  {obj : CdsObject} {f : Fifo} {making : List Fifo} {s : TempDir}

theorem Reading.owned (h : Reading [] s) : Owned s := by
  rw [owned_iff]
  intro f hf
  rcases h.owner f hf with hmaking | hproc
  · cases hmaking
  · exact Or.inl hproc

theorem Reading.unlink (h : Reading [f] s) : Reading [] (s.unlink f) := by
  refine ⟨fun g hg => ?_, fun hmem => h.fifo (List.mem_of_mem_filter hmem), h.procList, h.mainProc,
    h.ioHandler⟩
  obtain ⟨hmem, hne⟩ := List.mem_filter.mp hg
  right
  rcases h.owner g hmem with hmaking | hproc
  · rw [List.mem_singleton.mp hmaking] at hne
    exact absurd rfl (of_decide_eq_true hne)
  · exact hproc

/-- What the handler of `m` unlinks is what `m` was making. -/
theorem reading_unlinkOnThrow {m : Call Unit} {Q : Unit → TempDir → Prop}
    (h : Triple (Reading [f]) m Q (Reading [f])) :
    Triple (Reading [f]) (unlinkOnThrow f m) Q (Reading []) := by
  apply triple_tryCatch h
  intro ex
  refine triple_bind (triple_modify fun s hs => ?_) fun _ => triple_throw fun s hs => hs
  exact hs.unlink

theorem Reading.weaken (h : Reading [] s) : Reading making s :=
  ⟨fun g hg => Or.inr ((h.owner g hg).resolve_left List.not_mem_nil), h.fifo, h.procList,
    h.mainProc, h.ioHandler⟩

theorem reading_readerFifo (hf : f ≠ .transcoder) :
    Triple (Reading []) (readerFifo sys f) (fun _ => Reading [f]) (Reading []) := by
  unfold readerFifo
  split
  · apply triple_modify
    intro s hs
    refine ⟨fun g hg => ?_, fun hmem => ?_, hs.procList, hs.mainProc, hs.ioHandler⟩
    · rcases List.mem_cons.mp hg with rfl | hold
      · exact Or.inl (List.mem_singleton_self g)
      · exact Or.inr ((hs.owner g hold).resolve_left List.not_mem_nil)
    · rcases List.mem_cons.mp hmem with rfl | hold
      · exact hf rfl
      · exact hs.fifo hold
  · exact triple_throw fun s hs => hs

/-- The chainer of the new thread owns the new fifo; what the old ones owned is gone. -/
theorem reading_setProcList (hf : f ≠ .transcoder) :
    Triple (Reading [f]) (Prog.modify (·.setProcList [f]) : Call Unit) (fun _ => Reading [])
      (Reading [f]) := by
  apply triple_modify
  intro s hs
  refine ⟨fun g hg => ?_, fun hmem => hs.fifo (List.mem_of_mem_filter hmem), fun hmem => ?_,
    hs.mainProc, hs.ioHandler⟩
  · obtain ⟨hmem, hnot⟩ := List.mem_filter.mp hg
    exact Or.inr ((hs.owner g hmem).resolve_right (of_decide_eq_true hnot))
  · exact hf (List.mem_singleton.mp hmem).symm

theorem reading_ofExcept {α : Type} (r : Except Exception α) :
    Triple (Reading making) (Prog.ofExcept r : Call α) (fun _ => Reading making)
      (Reading making) :=
  triple_ofExcept (fun _ _ _ hs => hs) fun _ _ _ hs => hs

theorem reading_readURL :
    Triple (Reading []) (readURL sys location) (fun _ => Reading []) (Reading []) := by
  unfold readURL
  split
  · exact triple_throw fun s hs => hs
  · refine triple_bind (reading_readerFifo (by decide)) fun _ => reading_unlinkOnThrow ?_
    refine triple_bind (reading_ofExcept _) fun _ => triple_bind ?_ fun _ =>
      reading_setProcList (by decide)
    -- the handler on the fifo is destroyed before the `catch` comes
    exact triple_conseq (reading_unlinkOnThrow (reading_ofExcept _)) (fun s hs => hs)
      (fun _ s hs => hs) fun s hs => hs.weaken

theorem reading_readDVD :
    Triple (Reading []) (readDVD sys obj) (fun _ => Reading []) (Reading []) := by
  refine triple_bind (reading_readerFifo (by decide)) fun _ => reading_unlinkOnThrow ?_
  refine triple_bind (reading_ofExcept _) fun parameters => ?_
  refine triple_bind (reading_ofExcept _) fun _ => ?_
  exact triple_bind (reading_ofExcept _) fun _ => reading_setProcList (by decide)

theorem reading_readers :
    Triple (Reading []) (readers sys profile location obj) (fun _ => Reading [])
      (Reading []) := by
  unfold readers
  apply triple_bind
  · split
    · exact reading_readURL
    · exact triple_pure fun s hs => hs
  · intro _
    split
    · exact reading_readDVD
    · exact triple_pure fun s hs => hs

/-- **The transcoder's fifo is there, and nobody has it.** -/
structure Unowned (s : TempDir) : Prop where
  fifo : .transcoder ∈ s.fifos
  owner : ∀ f ∈ s.fifos, f = .transcoder ∨ f ∈ s.procList
  procList : .transcoder ∉ s.procList
  mainProc : s.mainProc = none
  ioHandler : s.ioHandler = false

theorem Unowned.not_owned (h : Unowned s) : ¬ Owned s := by
  intro howned
  rcases owned_iff.mp howned .transcoder h.fifo with hproc | hmain | ⟨hhandler, -⟩
  · exact h.procList hproc
  · rw [h.mainProc] at hmain
    cases hmain
  · rw [h.ioHandler] at hhandler
    cases hhandler

theorem unowned_prepare : Triple (Reading []) (prepare sys profile location obj)
    (fun _ => Unowned) Owned := by
  have hchecks : ∀ {α : Type} (r : Except Exception α), Triple (Reading [])
      (Prog.ofExcept r : Call α) (fun _ => Reading []) Owned := fun r =>
    triple_conseq (reading_ofExcept r) (fun s hs => hs) (fun _ s hs => hs) fun s hs => hs.owned
  have hreaders : Triple (Reading []) (readers sys profile location obj) (fun _ => Reading [])
      Owned :=
    triple_conseq reading_readers (fun s hs => hs) (fun _ s hs => hs) fun s hs => hs.owned
  have hfifo : Triple (Reading []) (transcoderFifo sys) (fun _ => Unowned) Owned := by
    unfold transcoderFifo
    split
    · apply triple_modify
      intro s hs
      refine ⟨List.mem_cons_self, fun g hg => ?_, hs.procList, hs.mainProc, hs.ioHandler⟩
      rcases List.mem_cons.mp hg with rfl | hold
      · exact Or.inl rfl
      · exact Or.inr ((hs.owner g hold).resolve_left List.not_mem_nil)
    · exact triple_throw fun s hs => hs.owned
  refine triple_bind (hchecks _) fun mimeType => triple_bind hreaders fun _ => ?_
  refine triple_bind (hchecks _) fun _ => triple_bind hfifo fun _ => ?_
  exact triple_pure fun s hs => hs

/-- A transcoder that is launched has its fifo. -/
theorem owned_launch (hfork : sys.fork = true) :
    Triple Unowned (launch sys profile obj) (fun _ => Owned) Owned := by
  unfold launch
  rw [hfork]
  apply triple_modify
  intro s hs
  rw [owned_iff]
  intro f hf
  rcases hs.owner f hf with rfl | hproc
  · exact Or.inr (Or.inl List.mem_cons_self)
  · exact Or.inl hproc

theorem owned_ofExcept (r : Except Exception Unit) :
    Triple Owned (Prog.ofExcept r : Call Unit) (fun _ => Owned) Owned :=
  triple_ofExcept (fun _ _ _ hs => hs) fun _ _ _ hs => hs

theorem owned_handlers : Triple Owned (handlers sys profile) (fun _ => Owned) Owned := by
  unfold handlers
  refine triple_bind ?_ fun _ => triple_bind (owned_ofExcept _) fun _ => triple_bind ?_ fun _ =>
    owned_ofExcept _
  · unfold processIOHandler
    split
    · exact triple_throw fun s hs => hs
    · apply triple_modify
      intro s hs
      rw [owned_iff] at hs ⊢
      intro f hf
      rcases hs f hf with hproc | hmain | ⟨-, hfifo⟩
      · exact Or.inl hproc
      · exact Or.inr (Or.inl hmain)
      · exact Or.inr (Or.inr ⟨rfl, hfifo⟩)
  · have hunlink : ∀ s, Owned s → Owned (s.unlink .transcoder) := by
      intro s hs
      rw [owned_iff] at hs ⊢
      intro f hf
      exact hs f (List.mem_of_mem_filter hf)
    unfold openHandler
    split
    · exact triple_throw fun s hs => hs
    · split
      · exact triple_throw fun s hs => hs
      · exact triple_bind (triple_modify hunlink) fun _ => triple_throw fun s hs => hs
      · split
        · exact triple_throw fun s hs => hs
        · exact triple_pure fun s hs => hs

/-! ## When the transcoder is reached -/

/-- **Everything before the launch succeeds.** -/
structure Launches (sys : TranscodeSystem) (profile : ExternalProfile) (location : Option Str)
    (obj : CdsObject) : Prop where
  contentType : ∃ mimeType, contentType sys profile obj = .ok mimeType
  url : readsURL profile obj = true → sys.haveCurl = true ∧ sys.mkfifo .url = true ∧
    curlIOHandler sys location = .ok () ∧ sys.openCurl = .ok ()
  dvd : readsDVD sys obj = true → sys.mkfifo .dvd = true ∧
    (∃ title chapter audioTrack, resourceParameters obj = .ok (title, chapter, audioTrack) ∧
      sys.dvdIOHandler obj.location title chapter = .ok ()) ∧ dvdPipes sys = .ok ()
  command : findTranscoder sys profile.command = .ok ()
  fifo : sys.mkfifo .transcoder = true

theorem run_ofExcept_fst {α : Type} (r : Except Exception α) (s : TempDir) :
    ((Prog.ofExcept r : Call α).run s).1 = r := by
  rcases r with e | a <;> rfl

theorem unlinkOnThrow_ok_iff {m : Call Unit} :
    ((unlinkOnThrow f m).run s).1 = .ok () ↔ (m.run s).1 = .ok () := by
  unfold unlinkOnThrow
  rw [run_tryCatch]
  rcases m.run s with ⟨e | a, s'⟩
  · constructor <;> intro h <;> cases h
  · exact Iff.rfl

theorem readerFifo_ok_iff : ((readerFifo sys f).run s).1 = .ok () ↔ sys.mkfifo f = true := by
  unfold readerFifo
  split
  · next h => exact ⟨fun _ => h, fun _ => rfl⟩
  · next h => exact ⟨fun hok => (nomatch hok), fun hmkfifo => absurd hmkfifo h⟩

theorem readURL_ok_iff : ((readURL sys location).run s).1 = .ok () ↔
    sys.haveCurl = true ∧ sys.mkfifo .url = true ∧ curlIOHandler sys location = .ok () ∧
      sys.openCurl = .ok () := by
  unfold readURL
  rcases hcurl : sys.haveCurl with _ | _
  · constructor
    · intro h
      cases h
    · rintro ⟨h, -⟩
      cases h
  · show ((readerFifo sys .url >>= fun _ => unlinkOnThrow .url _).run s).1 = _ ↔ _
    rw [fst_bind_ok_iff]
    constructor
    · rintro ⟨_, hfifo, h⟩
      rw [unlinkOnThrow_ok_iff, fst_bind_ok_iff] at h
      obtain ⟨_, hbuilt, h⟩ := h
      obtain ⟨_, hopened, -⟩ := fst_bind_ok_iff.mp h
      rw [unlinkOnThrow_ok_iff, run_ofExcept_fst] at hopened
      rw [run_ofExcept_fst] at hbuilt
      exact ⟨rfl, readerFifo_ok_iff.mp hfifo, hbuilt, hopened⟩
    · rintro ⟨-, hfifo, hbuilt, hopened⟩
      refine ⟨(), readerFifo_ok_iff.mpr hfifo, ?_⟩
      rw [unlinkOnThrow_ok_iff, fst_bind_ok_iff]
      refine ⟨(), ?_, ?_⟩
      · rw [run_ofExcept_fst]
        exact hbuilt
      · rw [fst_bind_ok_iff]
        refine ⟨(), ?_, rfl⟩
        rw [unlinkOnThrow_ok_iff, run_ofExcept_fst]
        exact hopened

theorem readDVD_ok_iff : ((readDVD sys obj).run s).1 = .ok () ↔ sys.mkfifo .dvd = true ∧
    (∃ title chapter audioTrack, resourceParameters obj = .ok (title, chapter, audioTrack) ∧
      sys.dvdIOHandler obj.location title chapter = .ok ()) ∧ dvdPipes sys = .ok () := by
  show ((readerFifo sys .dvd >>= fun _ => unlinkOnThrow .dvd _).run s).1 = _ ↔ _
  rw [fst_bind_ok_iff]
  constructor
  · rintro ⟨_, hfifo, h⟩
    rw [unlinkOnThrow_ok_iff, fst_bind_ok_iff] at h
    obtain ⟨⟨title, chapter, audioTrack⟩, hparameters, h⟩ := h
    obtain ⟨_, hdvd, h⟩ := fst_bind_ok_iff.mp h
    obtain ⟨_, hpipes, -⟩ := fst_bind_ok_iff.mp h
    rw [run_ofExcept_fst] at hparameters hdvd hpipes
    exact ⟨readerFifo_ok_iff.mp hfifo, ⟨title, chapter, audioTrack, hparameters, hdvd⟩, hpipes⟩
  · rintro ⟨hfifo, ⟨title, chapter, audioTrack, hparameters, hdvd⟩, hpipes⟩
    refine ⟨(), readerFifo_ok_iff.mpr hfifo, ?_⟩
    rw [unlinkOnThrow_ok_iff, fst_bind_ok_iff]
    refine ⟨(title, chapter, audioTrack), ?_, ?_⟩
    · rw [run_ofExcept_fst]
      exact hparameters
    · show ((Prog.ofExcept (sys.dvdIOHandler obj.location title chapter) >>=
        fun _ => _).run _).1 = _
      rw [hdvd, fst_bind_ok_iff]
      refine ⟨(), rfl, ?_⟩
      rw [hpipes]
      rfl

theorem optional_ok_iff {c : Bool} {m : Call Unit} :
    (((if c then m else pure ()) : Call Unit).run s).1 = .ok () ↔
      (c = true → (m.run s).1 = .ok ()) := by
  rcases c with _ | _
  · exact ⟨fun _ h => (nomatch h), fun _ => rfl⟩
  · exact ⟨fun h _ => h, fun h => h rfl⟩

theorem prepare_ok_iff :
    (∃ mimeType, ((prepare sys profile location obj).run s).1 = .ok mimeType) ↔
      Launches sys profile location obj := by
  have hreaders : ∀ {s}, ((readers sys profile location obj).run s).1 = .ok () ↔
      (readsURL profile obj = true → sys.haveCurl = true ∧ sys.mkfifo .url = true ∧
        curlIOHandler sys location = .ok () ∧ sys.openCurl = .ok ()) ∧
      (readsDVD sys obj = true → sys.mkfifo .dvd = true ∧
        (∃ title chapter audioTrack, resourceParameters obj = .ok (title, chapter, audioTrack) ∧
          sys.dvdIOHandler obj.location title chapter = .ok ()) ∧ dvdPipes sys = .ok ()) := by
    intro s
    unfold readers
    rw [fst_bind_ok_iff]
    constructor
    · rintro ⟨_, hurl, hdvd⟩
      rw [optional_ok_iff, readURL_ok_iff] at hurl
      rw [optional_ok_iff, readDVD_ok_iff] at hdvd
      exact ⟨hurl, hdvd⟩
    · rintro ⟨hurl, hdvd⟩
      refine ⟨(), ?_, ?_⟩
      · rw [optional_ok_iff, readURL_ok_iff]
        exact hurl
      · rw [optional_ok_iff, readDVD_ok_iff]
        exact hdvd
  have hfifo : ∀ {s}, ((transcoderFifo sys).run s).1 = .ok () ↔ sys.mkfifo .transcoder = true := by
    intro s
    unfold transcoderFifo
    split
    · next h => exact ⟨fun _ => h, fun _ => rfl⟩
    · next h => exact ⟨fun hok => (nomatch hok), fun hmkfifo => absurd hmkfifo h⟩
  constructor
  · rintro ⟨mimeType, h⟩
    obtain ⟨_, hmime, h⟩ := fst_bind_ok_iff.mp h
    obtain ⟨_, hread, h⟩ := fst_bind_ok_iff.mp h
    obtain ⟨_, hcommand, h⟩ := fst_bind_ok_iff.mp h
    obtain ⟨_, hmkfifo, -⟩ := fst_bind_ok_iff.mp h
    rw [run_ofExcept_fst] at hmime hcommand
    obtain ⟨hurl, hdvd⟩ := hreaders.mp hread
    exact ⟨⟨_, hmime⟩, hurl, hdvd, hcommand, hfifo.mp hmkfifo⟩
  · intro h
    obtain ⟨mimeType, hmime⟩ := h.contentType
    refine ⟨mimeType, fst_bind_ok_iff.mpr ⟨mimeType, ?_, ?_⟩⟩
    · rw [run_ofExcept_fst]
      exact hmime
    refine fst_bind_ok_iff.mpr ⟨(), hreaders.mpr ⟨h.url, h.dvd⟩, ?_⟩
    refine fst_bind_ok_iff.mpr ⟨(), ?_, ?_⟩
    · rw [run_ofExcept_fst]
      exact h.command
    exact fst_bind_ok_iff.mpr ⟨(), hfifo.mpr h.fifo, rfl⟩

end

/-- **`open` leaves a fifo behind just when the transcoder is not launched**: everything before
    succeeds, and there is no new process. -/
theorem open_leaves_no_fifo_iff (sys : TranscodeSystem) (profile : Option ExternalProfile)
    (location : Option Str) (obj : CdsObject) :
    (∀ ex s, (openTranscoder sys profile location obj).run {} = (.error ex, s) →
        s.remaining = []) ↔
      ¬ ∃ p, profile = some p ∧ Launches sys p location obj ∧ sys.fork = false := by
  have hstart : Reading [] {} :=
    ⟨fun f hf => absurd hf List.not_mem_nil, List.not_mem_nil, List.not_mem_nil, rfl, rfl⟩
  rcases profile with _ | profile
  · constructor
    · rintro - ⟨p, hp, -⟩
      cases hp
    · rintro - ex s h
      cases h
      rfl
  have hrun : (openTranscoder sys (some profile) location obj).run {} =
      (prepare sys profile location obj >>= fun mimeType => launch sys profile obj >>= fun _ =>
        handlers sys profile >>= fun _ => pure mimeType).run {} := rfl
  rw [hrun]
  have hprepare := @unowned_prepare sys profile location obj {} hstart
  rcases hp : (prepare sys profile location obj).run {} with ⟨ex | mimeType, s⟩
  · -- nothing has been launched, and what was created belongs to the readers
    rw [hp] at hprepare
    have hnot : ¬ Launches sys profile location obj := by
      intro h
      obtain ⟨mimeType, hok⟩ := (prepare_ok_iff (s := {})).mpr h
      rw [hp] at hok
      cases hok
    constructor
    · rintro - ⟨p, hsome, hlaunches, -⟩
      cases hsome
      exact hnot hlaunches
    · rintro - ex' s' h
      rw [run_bind_of_error hp] at h
      cases h
      exact hprepare
  · rw [hp] at hprepare
    have hlaunches : Launches sys profile location obj := by
      apply (prepare_ok_iff (s := {})).mp
      rw [hp]
      exact ⟨mimeType, rfl⟩
    rw [run_bind_of_ok hp]
    rcases hfork : sys.fork with _ | _
    · have hthrows : (launch sys profile obj).run s =
          (.error (.exception (str "Failed to launch process " ++ profile.command)), s) := by
        unfold launch
        rw [hfork]
        rfl
      rw [run_bind_of_error hthrows]
      constructor
      · intro h
        exact absurd (h _ s rfl) hprepare.not_owned
      · intro h
        exact absurd ⟨profile, rfl, hlaunches, rfl⟩ h
    · constructor
      · rintro - ⟨p, -, -, hfalse⟩
        cases hfalse
      · rintro - ex' s' h
        have howned : Triple Unowned
            (launch sys profile obj >>= fun _ => handlers sys profile >>= fun _ => pure mimeType)
            (fun _ => Owned) Owned :=
          triple_bind (owned_launch hfork) fun _ => triple_bind owned_handlers fun _ =>
            triple_pure fun s hs => hs
        have hfinal := howned s hprepare
        rw [h] at hfinal
        exact hfinal

/-- No process for the transcoder of a plain file: its fifo stays. -/
theorem open_leaves_fifo : ¬ ∀ (sys : TranscodeSystem) (profile : Option ExternalProfile)
    (location : Option Str) (obj : CdsObject) (ex : Exception) (s : TempDir),
      (openTranscoder sys profile location obj).run {} = (.error ex, s) → s.remaining = [] := by
  intro hall
  have h := hall { fork := false }
    (some { targetMimeType := some (str "video/mpeg"), command := str "ffmpeg", bufferSize := 2,
            bufferChunkSize := 1, bufferInitialFillSize := 1 })
    (some (str "/film")) { upnpClass := none, kind := .item {} } _ _ rfl
  revert h
  decide

end TranscodeExternalHandler

end MediaTomb
