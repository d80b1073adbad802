/-
  The resources of an object, in its row and in the cache.

  An object's resources are kept in two places, and a row that has none of its own shows those of
  the row it refers to.  `KnownResources` says that both places have the resources that are KNOWN for an
  object; whoever only reads, or stores the object with these resources, leaves it so:

    * a flush of the insert buffer adds rows, and changes none;
    * the cache keeps a copy of what was read;
    * `updateObject` writes the resources again, unless the object it refers to has the same.
-/
import MediaTomb.Storage.StoredObject

namespace MediaTomb

open Lib.Prog

/-! ## The resources of a row -/

/-- The resources that are read for an object. -/
def Database.resourcesOf (db : Database) (id : Int) : Option (List CdsResource) :=
  (db.objects.find? id).bind fun f => (decodeResources
    (splitString ((db.join f).fallback ObjectRow.resources) resourceSep false)).toOption

/-- The resources in the row itself. -/
def Database.ownResources (db : Database) (id : Int) : Option (List CdsResource) :=
  (db.objects.find? id).bind fun f =>
    (decodeResources (splitString f.resources resourceSep false)).toOption

/-- No row is lost or changed. -/
def Database.Grows (db db' : Database) : Prop :=
  ∀ id f, db.objects.find? id = some f → db'.objects.find? id = some f

section

variable {db db' : Database} {id : Int} {resources : List CdsResource} {f : ObjectRow}

theorem fallback_some {text : Str} (h : f.resources = some text) :
    (db.join f).fallback ObjectRow.resources = some text := by
  show fallbackString f.resources _ = _
  rw [h]
  rfl

theorem fallback_none (h : f.resources = none) :
    (db.join f).fallback ObjectRow.resources =
      (f.refID.bind db.objects.find?).bind ObjectRow.resources := by
  show fallbackString f.resources _ = _
  rw [h]
  rfl

theorem grows_executed {qs : List Statement} (h : Executed qs db db') : db.Grows db' := by
  intro id f hf
  obtain ⟨hmem, hid⟩ := Lib.Table.find?_eq_some.mp hf
  refine Lib.Table.find?_eq_some.mpr ⟨?_, hid⟩
  rw [h.objects]
  exact List.mem_append_left _ hmem

/-- Resources that are there are not changed by new rows. -/
theorem resourcesOf_grows (h : db.Grows db') (hne : resources ≠ [])
    (hread : db.resourcesOf id = some resources) : db'.resourcesOf id = some resources := by
  obtain ⟨f, hf, hdecode⟩ := Option.bind_eq_some_iff.mp hread
  refine Option.bind_eq_some_iff.mpr ⟨f, h id f hf, ?_⟩
  rcases hown : f.resources with _ | text
  · rw [fallback_none hown] at hdecode ⊢
    rcases href : f.refID.bind db.objects.find? with _ | g
    · -- nothing is read at all
      rw [href] at hdecode
      exact absurd (Option.some.inj hdecode).symm hne
    · obtain ⟨j, hj, hg⟩ := Option.bind_eq_some_iff.mp href
      rw [href] at hdecode
      rw [hj, Option.bind_some, h j g hg]
      exact hdecode
  · rw [fallback_some hown] at hdecode ⊢
    exact hdecode

theorem ownResources_grows (h : db.Grows db') (hread : db.ownResources id = some resources) :
    db'.ownResources id = some resources := by
  obtain ⟨f, hf, hdecode⟩ := Option.bind_eq_some_iff.mp hread
  exact Option.bind_eq_some_iff.mpr ⟨f, h id f hf, hdecode⟩

/-- An UPDATE that leaves the two columns alone. -/
theorem resourcesOf_updateObjects {g : ObjectRow → ObjectRow} {hg : ∀ r, (g r).id = r.id}
    (hresources : ∀ r, (g r).resources = r.resources) (href : ∀ r, (g r).refID = r.refID) :
    (db.updateObjects g hg).resourcesOf id = db.resourcesOf id := by
  have hfind : ∀ j, (db.updateObjects g hg).objects.find? j = (db.objects.find? j).map g :=
    fun j => @Lib.Table.find?_update _ _ _ _ db.objects g hg j
  have hother : ∀ r : ObjectRow,
      ((r.refID.bind (db.updateObjects g hg).objects.find?).bind ObjectRow.resources) =
        (r.refID.bind db.objects.find?).bind ObjectRow.resources := by
    intro r
    rcases r.refID with _ | j
    · rfl
    · show ((db.updateObjects g hg).objects.find? j).bind _ = (db.objects.find? j).bind _
      rw [hfind]
      rcases db.objects.find? j with _ | r'
      · rfl
      · exact hresources r'
  unfold Database.resourcesOf
  rw [hfind]
  rcases db.objects.find? id with _ | f
  · rfl
  · show Except.toOption _ = Except.toOption _
    rcases hown : f.resources with _ | text
    · rw [fallback_none hown, fallback_none ((hresources f).trans hown), href, hother]
    · rw [fallback_some hown, fallback_some ((hresources f).trans hown)]

end

/-! ## What is known -/

/-- The type of an active item. -/
def activeItemType : UInt32 := (CdsKind.activeItem {} none none).objectType

/-- The object has the resources that are known for it; the item is an active item. -/
def AsKnown (item : Int) (known : Int → Option (List CdsResource)) (o : CdsObject) : Prop :=
  (∀ resources, known o.id = some resources → o.resources = resources) ∧
    (o.id = item → known item ≠ none → o.objectType = activeItemType)

/-- **The row and the cache have these resources**, and some rows have them themselves. -/
structure KnownResources (item : Int) (known : Int → Option (List CdsResource))
    (owned : Int → Prop) (s : StorageState) : Prop where
  row : ∀ id resources, known id = some resources → s.db.resourcesOf id = some resources
  /-- the other objects do not refer to the item -/
  apart : ∀ id f, id ≠ item → known id ≠ none → s.db.objects.find? id = some f →
    f.refID ≠ some item
  own : ∀ id f, id ≠ item → known id ≠ none → owned id → s.db.objects.find? id = some f →
    f.resources ≠ none
  active : ∀ f, known item ≠ none → s.db.objects.find? item = some f →
    f.objectType = activeItemType
  cached : ∀ id o, known id ≠ none → cachedObject s id = some o →
    o.id = id ∧ AsKnown item known o

section

variable {item : Int} {known : Int → Option (List CdsResource)} {owned : Int → Prop}
  {s s' : StorageState} {id : Int} {resources : List CdsResource} {o : CdsObject}

/-- A row of a known object was there before. -/
theorem KnownResources.find_before (h : KnownResources item known owned s)
    (hgrows : s.db.Grows s'.db) (hknown : known id ≠ none) {f : ObjectRow}
    (hf : s'.db.objects.find? id = some f) : s.db.objects.find? id = some f := by
  obtain ⟨resources, hresources⟩ := Option.ne_none_iff_exists'.mp hknown
  obtain ⟨g, hg, -⟩ := Option.bind_eq_some_iff.mp (h.row id resources hresources)
  rw [hgrows id g hg] at hf
  rw [← Option.some.inj hf]
  exact hg

theorem KnownResources.grows (h : KnownResources item known owned s)
    (hne : ∀ id, known id ≠ some []) (hgrows : s.db.Grows s'.db) (hcache : s'.cache = s.cache) :
    KnownResources item known owned s' where
  row id resources hknown := by
    refine resourcesOf_grows hgrows ?_ (h.row id resources hknown)
    rintro rfl
    exact hne id hknown
  apart id f hid hknown hf := h.apart id f hid hknown (h.find_before hgrows hknown hf)
  own id f hid hknown hown hf := h.own id f hid hknown hown (h.find_before hgrows hknown hf)
  active f hknown hf := h.active f hknown (h.find_before hgrows hknown hf)
  cached id o hknown ho := by
    refine h.cached id o hknown ?_
    unfold cachedObject at ho ⊢
    rw [← hcache]
    exact ho

theorem known_flush (hne : ∀ id, known id ≠ some []) :
    Keeps (Frame.inv (KnownResources item known owned)) flushInsertBuffer := by
  intro s h
  rcases run_flushInsertBuffer s with
    ⟨-, hrun⟩ | ⟨db, -, hdone, hrun⟩ | ⟨e, db, done, rest, -, -, hdone, hrun⟩
  · rw [hrun]
    exact h
  · rw [hrun]
    exact h.grows hne (grows_executed hdone) rfl
  · rw [hrun]
    exact h.grows hne (grows_executed hdone) rfl

/-- The cache is written to, with what is known. -/
theorem known_modifyCache {f : StorageCache → StorageCache}
    (hf : ∀ c j o, ((f c).getObject j).bind CacheObject.obj = some o →
      (c.getObject j).bind CacheObject.obj = some o ∨ (o.id = j ∧ AsKnown item known o)) :
    Keeps (Frame.inv (KnownResources item known owned)) (modifyCache f) := by
  intro s h
  refine ⟨h.row, h.apart, h.own, h.active, fun id o hknown ho => ?_⟩
  obtain ⟨c', hc', ho'⟩ := Option.bind_eq_some_iff.mp ho
  obtain ⟨c, hc, rfl⟩ := Option.map_eq_some_iff.mp hc'
  rcases hf c id o ho' with hbefore | ⟨rfl, hasKnown⟩
  · exact h.cached id o hknown (Option.bind_eq_some_iff.mpr ⟨c, hc, hbefore⟩)
  · exact ⟨rfl, hasKnown⟩

theorem getObjectDefinitely_obj (c : StorageCache) (id j : Int)
    (h : ((c.getObjectDefinitely id).2.getObject j).bind CacheObject.obj = some o) :
    (c.getObject j).bind CacheObject.obj = some o := by
  by_cases heq : j = id
  · subst heq
    unfold StorageCache.getObjectDefinitely at h
    rcases hget : c.getObject j with _ | cObj
    · rw [hget] at h
      simp only at h
      by_cases hmark : isMarkerID j = true
      · -- a marker is not stored, and what is left was there before
        have hput : (c.ensureFillLevelOk.put j {}).getObject j =
            c.ensureFillLevelOk.getObject j := by
          unfold StorageCache.put
          rw [if_pos hmark]
          rfl
        rw [hput] at h
        rcases StorageCache.getObject_ensureFillLevelOk (c := c) with hnone | hsame
        · rw [hnone] at h
          cases h
        · rw [hsame, hget] at h
          exact h
      · have hput : (c.ensureFillLevelOk.put j {}).getObject j = some {} := by
          unfold StorageCache.put
          rw [if_neg hmark]
          exact AList.lookup_insert _
        rw [hput] at h
        cases h
    · rw [hget] at h
      exact hget ▸ h
  · rcases StorageCache.getObject_getObjectDefinitely_ne (c := c) heq with hnone | hsame
    · rw [hnone] at h
      cases h
    · rw [hsame] at h
      exact h

theorem store_obj (c : StorageCache) (id j : Int) (cObj : CacheObject)
    (h : ((c.store id cObj).getObject j).bind CacheObject.obj = some o) :
    (c.getObject j).bind CacheObject.obj = some o ∨ (j = id ∧ cObj.obj = some o) := by
  by_cases heq : j = id
  · subst heq
    by_cases hmark : isMarkerID j = true
    · unfold StorageCache.store at h
      rw [if_pos hmark] at h
      exact Or.inl h
    · rw [StorageCache.getObject_store_self (Bool.not_eq_true _ ▸ hmark)] at h
      exact Or.inr ⟨rfl, h⟩
  · rw [StorageCache.getObject_store_ne heq] at h
    exact Or.inl h

theorem known_flushIfFlushed (hne : ∀ id, known id ≠ some []) :
    Keeps (Frame.inv (KnownResources item known owned)) flushIfFlushed := by
  refine keeps_get_bind fun s => ?_
  rcases s.cache with _ | c
  · exact fun h => h
  · have hflag : Keeps (Frame.inv (KnownResources item known owned))
        (modifyCache fun c => c.flushed.2) := known_modifyCache fun c j o ho => Or.inl ho
    have hflush : Keeps (Frame.inv (KnownResources item known owned))
        (if c.flushed.1 then flushInsertBuffer else pure ()) :=
      keeps_ite (fun _ => known_flush hne) fun _ => keeps_pure _
    exact keeps_bind hflag (fun _ => hflush) s

/-- **The cache is told of an object**, as it is known. -/
theorem known_addObjectToCache (hne : ∀ id, known id ≠ some []) (ho : AsKnown item known o) :
    Keeps (Frame.inv (KnownResources item known owned)) (addObjectToCache o) := by
  refine keeps_bind (keeps_read _) fun on => keeps_ite (fun _ => ?_) fun _ => keeps_pure _
  refine keeps_locked (keeps_bind ?_ fun _ => keeps_bind (known_flushIfFlushed hne) fun _ => ?_)
  · exact known_modifyCache fun c j o ho => Or.inl (getObjectDefinitely_obj c _ j ho)
  · refine known_modifyCache fun c j o' ho' => ?_
    rw [StorageCache.getObject_checkLocation] at ho'
    rcases store_obj c _ j _ ho' with hbefore | ⟨rfl, hset⟩
    · exact Or.inl hbefore
    · rw [CacheObject.setObject_obj] at hset
      cases hset
      exact Or.inr ⟨rfl, ho.1, fun hid hk => (CdsObject.copy_objectType o).trans (ho.2 hid hk)⟩

/-! ## Reading -/

theorem createObject_resources {type : UInt32} (h : CdsObject.createObject type = .ok o) :
    o.resources = [] := by
  unfold CdsObject.createObject at h
  split_ifs at h
  · cases h
    rfl
  · cases h
    rfl
  · cases h
    rfl
  · cases h
    rfl
  · cases h
    rfl

/-- What is read of a row is its id and its resources. -/
theorem toObject_resources {joined : Database.JoinedRow} (h : joined.toObject = .ok o) :
    o.id = joined.f.id ∧ decodeResources
      (splitString (joined.fallback ObjectRow.resources) resourceSep false) = .ok o.resources := by
  unfold Database.JoinedRow.toObject at h
  simp only at h
  rcases hcreate : CdsObject.createObject joined.f.objectType with e | fresh
  · rw [hcreate] at h
    cases h
  · rw [hcreate] at h
    rcases hdecode : decodeResources
        (splitString (joined.fallback ObjectRow.resources) resourceSep false) with e | resources
    · rw [hdecode] at h
      cases h
    · rw [hdecode] at h
      have hfresh := createObject_resources hcreate
      have hcommon : (joined.commonFields resources fresh).resources = resources := by
        show fresh.resources ++ resources = resources
        rw [hfresh, List.nil_append]
      -- neither a container nor an item touches the two
      obtain ⟨o', hid, hresources, hkind⟩ : ∃ o' : CdsObject, o'.id = joined.f.id ∧
          o'.resources = resources ∧ (if isCdsItem joined.f.objectType then
            if resources.isEmpty then Except.error (Exception.exception
              (str "tried to create object without at least one resource"))
            else Except.ok (joined.itemFields o')
          else if isCdsContainer joined.f.objectType || isCdsActiveItem joined.f.objectType then
            Except.ok o'
          else Except.error (Exception.storage (str "unknown object type: " ++
            fromInt joined.f.objectType.toNat))) = Except.ok o := by
        simp only [bind, Except.bind] at h
        by_cases hc : isCdsContainer joined.f.objectType = true
        · refine ⟨joined.containerFields (joined.commonFields resources fresh), rfl, hcommon, ?_⟩
          rw [if_pos hc] at h
          exact h
        · refine ⟨joined.commonFields resources fresh, rfl, hcommon, ?_⟩
          rw [if_neg hc] at h
          exact h
      split_ifs at hkind
      · cases hkind
        exact ⟨hid, congrArg Except.ok hresources.symm⟩
      · cases hkind
        exact ⟨hid, congrArg Except.ok hresources.symm⟩

theorem createObject_active (h : CdsObject.createObject activeItemType = .ok o) :
    o.objectType = activeItemType := by
  cases h
  rfl

theorem toObject_active {joined : Database.JoinedRow} (h : joined.toObject = .ok o)
    (hactive : joined.f.objectType = activeItemType) : o.objectType = activeItemType := by
  unfold Database.JoinedRow.toObject at h
  simp only [hactive] at h
  rcases hcreate : CdsObject.createObject activeItemType with e | fresh
  · rw [hcreate] at h
    cases h
  · rw [hcreate] at h
    rcases hdecode : decodeResources
        (splitString (joined.fallback ObjectRow.resources) resourceSep false) with e | resources
    · rw [hdecode] at h
      cases h
    · rw [hdecode] at h
      simp only [bind, Except.bind] at h
      have hitem : isCdsItem activeItemType = true := by decide
      have hcontainer : ¬isCdsContainer activeItemType = true := by decide
      rw [if_pos hitem, if_neg hcontainer] at h
      split_ifs at h
      cases h
      have hfresh : fresh.kind.objectType = activeItemType := createObject_active hcreate
      exact (CdsKind.objectType_mapItem _ _).trans hfresh

/-- **`createObjectFromRow`** for a row of the table. -/
theorem known_createObjectFromRow (hne : ∀ id, known id ≠ some []) (f : ObjectRow) (db : Database)
    (hf : db.objects.find? f.id = some f) :
    Triple (fun s => KnownResources item known owned s ∧ s.db = db)
      (createObjectFromRow (db.join f))
      (fun o s => KnownResources item known owned s ∧ o.id = f.id ∧ AsKnown item known o)
      (KnownResources item known owned) := by
  intro s hs
  obtain ⟨h, hdb⟩ := hs
  unfold createObjectFromRow
  rcases hobject : (db.join f).toObject with e | o
  · exact h
  · obtain ⟨hid, hdecode⟩ := toObject_resources hobject
    have hknown : AsKnown item known o := by
      constructor
      · intro resources hresources
        have hrow := h.row o.id resources hresources
        rw [hdb, hid] at hrow
        obtain ⟨g, hg, hread⟩ := Option.bind_eq_some_iff.mp hrow
        have hsame : g = f := Option.some.inj (hg.symm.trans hf)
        rw [hsame, hdecode] at hread
        exact Option.some.inj hread
      · intro hitem hknown
        refine toObject_active hobject (h.active f hknown ?_)
        rw [hdb, ← hitem, hid]
        exact hf
    rw [ofExcept_ok_bind]
    -- the query for active items changes neither
    have hactive : Triple (KnownResources item known owned)
        (if isCdsActiveItem f.objectType then loadActiveItem o else pure o)
        (fun o' s => KnownResources item known owned s ∧ o'.id = f.id ∧ AsKnown item known o')
        (KnownResources item known owned) := by
      split
      · refine triple_bind (M := fun _ => KnownResources item known owned)
          (triple_read fun _ h => h) fun found => ?_
        rcases found with _ | row
        · exact triple_throw fun _ h => h
        · refine triple_pure fun _ h => ⟨h, hid, hknown.1, fun hitem hk => ?_⟩
          -- the class stays
          rw [← hknown.2 hitem hk]
          show CdsKind.objectType (match o.kind with | _ => _) = o.kind.objectType
          rcases o.kind with _ | _ | _ | _ | _
          · rfl
          · rfl
          · rfl
          · rfl
          · rfl
      · exact triple_pure fun _ h => ⟨h, hid, hknown⟩
    have hcached : Triple (KnownResources item known owned)
        ((if isCdsActiveItem f.objectType then loadActiveItem o else pure o) >>= fun o' => do
          addObjectToCache o'
          pure o')
        (fun o' s => KnownResources item known owned s ∧ o'.id = f.id ∧ AsKnown item known o')
        (KnownResources item known owned) := by
      refine triple_bind hactive fun o' => ?_
      intro t ⟨ht, hid', hknown'⟩
      refine triple_bind (M := fun _ => KnownResources item known owned)
        (known_addObjectToCache hne hknown').triple (fun _ => ?_) t ht
      exact triple_pure fun _ h => ⟨h, hid', hknown'⟩
    have hjoin : (do
        let obj ← if isCdsActiveItem (db.join f).f.objectType then loadActiveItem o else pure o
        addObjectToCache obj
        pure obj : Storage CdsObject) =
        ((if isCdsActiveItem f.objectType then loadActiveItem o else pure o) >>= fun o' => do
          addObjectToCache o'
          pure o') := by
      show (if isCdsActiveItem f.objectType = true then _ else _) = _
      split
      · rfl
      · rfl
    rw [hjoin]
    exact hcached s h

/-- **`loadObject`** finds what is known. -/
theorem known_loadObject (hne : ∀ id, known id ≠ some []) (id : Int) :
    Triple (KnownResources item known owned) (loadObject id)
      (fun o s => KnownResources item known owned s ∧
        (known id ≠ none → o.id = id ∧ AsKnown item known o))
      (KnownResources item known owned) := by
  intro s h
  unfold loadObject
  rw [run_read_bind]
  rcases hcached : cachedObject s id with _ | o
  · simp only [select, run_read_bind]
    rcases hrows : s.db.sqlQuery (fun f => f.id = id) with _ | ⟨joined, rows⟩
    · exact h
    · have hmem : joined ∈ s.db.sqlQuery fun f => f.id = id := by
        rw [hrows]
        exact List.mem_cons_self
      obtain ⟨f, hf, rfl⟩ := List.mem_map.mp hmem
      obtain ⟨hrow, hid⟩ := List.mem_filter.mp hf
      have hid' : f.id = id := of_decide_eq_true hid
      have hfind : s.db.objects.find? f.id = some f :=
        Lib.Table.find?_eq_some.mpr ⟨hrow, rfl⟩
      have hcreate := @known_createObjectFromRow item known owned hne f s.db hfind
      refine triple_conseq hcreate (fun _ h => h) ?_ (fun _ h => h) s ⟨h, rfl⟩
      rintro o t ⟨ht, hoid, hknown⟩
      exact ⟨ht, fun _ => ⟨hoid.trans hid', hknown⟩⟩
  · exact ⟨h, fun hknown => h.cached id o hknown hcached⟩

/-! ## Writing -/

theorem toInt_fits (text : Option Str) : -2 ^ 31 ≤ toInt text ∧ toInt text < 2 ^ 31 := by
  unfold toInt
  split
  · decide
  · next text =>
    simp only
    split
    · have hlow := @Int.le_bmod (strtol text).1 (2 ^ 32) (by decide)
      have hhigh := @Int.bmod_lt (strtol text).1 (2 ^ 32) (by decide)
      norm_num at hlow hhigh ⊢
      exact ⟨hlow, hhigh⟩
    · decide

theorem ofParts_fits (h a : Str) (p o : Option Str) :
    FitsInt (CdsResource.decode.ofParts h a p o) :=
  toInt_fits (some h)

/-- What has been read can be written again. -/
theorem decodeResources_fits {parts : List Str} (h : decodeResources parts = .ok resources) :
    ∀ r ∈ resources, FitsInt r := by
  induction parts generalizing resources with
  | nil =>
    cases h
    intro r hr
    cases hr
  | cons part parts ih =>
    unfold decodeResources at h
    rcases hr : CdsResource.decode part with e | r
    · rw [hr] at h
      cases h
    · rw [hr] at h
      rcases hrs : decodeResources parts with e | rs
      · rw [hrs] at h
        cases h
      · rw [hrs] at h
        cases h
        have hfits : FitsInt r := by
          unfold CdsResource.decode at hr
          split at hr
          · cases hr
            exact ofParts_fits _ _ _ _
          · cases hr
            exact ofParts_fits _ _ _ _
          · cases hr
            exact ofParts_fits _ _ _ _
          · cases hr
        intro r' hr'
        rcases List.mem_cons.mp hr' with rfl | hmem
        · exact hfits
        · exact ih hrs r' hmem

theorem KnownResources.fits (h : KnownResources item known owned s)
    (hknown : known id = some resources) : ∀ r ∈ resources, FitsInt r := by
  obtain ⟨f, -, hread⟩ := Option.bind_eq_some_iff.mp (h.row id resources hknown)
  rcases hdecode : decodeResources
      (splitString ((s.db.join f).fallback ObjectRow.resources) resourceSep false) with e | rs
  · rw [hdecode] at hread
    cases hread
  · rw [hdecode] at hread
    cases hread
    exact decodeResources_fits hdecode

/-- An active item's row that has these resources itself, or refers to one that has them itself. -/
def RowHas (item : Int) (known : Int → Option (List CdsResource)) (owned : Int → Prop)
    (resources : List CdsResource) (r : ObjectRow) : Prop :=
  r.objectType = activeItemType ∧ (r.resources = encodeResources resources ∨
    (r.resources = none ∧ ∃ id, r.refID = some id ∧ id ≠ item ∧ owned id ∧
      known id = some resources))

/-- **The item's row is written again**, with the same resources. -/
theorem KnownResources.update (h : KnownResources item known owned s)
    (hne : ∀ id, known id ≠ some []) (hknown : known item = some resources)
    {cols : ObjectColumns} (hcols : ∀ old, RowHas item known owned resources (cols.apply old)) :
    KnownResources item known owned { s with db := cols.update item s.db } := by
  have hfind : ∀ j, (cols.update item s.db).objects.find? j =
      (s.db.objects.find? j).map fun r => if r.id = item then cols.apply r else r :=
    fun j => @Lib.Table.find?_update _ _ _ _ s.db.objects _ (fun r => by split <;> rfl) j
  -- the other rows are what they were
  have hother : ∀ j, j ≠ item →
      (cols.update item s.db).objects.find? j = s.db.objects.find? j := by
    intro j hj
    rw [hfind]
    rcases hf : s.db.objects.find? j with _ | f
    · rfl
    · have hid : f.id ≠ item := fun hid => hj ((Lib.Table.find?_eq_some.mp hf).2.symm.trans hid)
      exact congrArg some (if_neg hid)
  refine ⟨fun id rs hrs => ?_, fun id f hid hk hf => ?_, fun id f hid hk hown hf => ?_,
    fun f hk hf => ?_, h.cached⟩
  · by_cases hid : id = item
    · subst hid
      rw [hknown] at hrs
      cases hrs
      obtain ⟨f, hf, -⟩ := Option.bind_eq_some_iff.mp (h.row id resources hknown)
      have hrow : (cols.update id s.db).objects.find? id = some (cols.apply f) := by
        rw [hfind, hf]
        exact congrArg some (if_pos (Lib.Table.find?_eq_some.mp hf).2)
      refine Option.bind_eq_some_iff.mpr ⟨_, hrow, ?_⟩
      rcases (hcols f).2 with hwritten | ⟨hnone, j, href, hj, hown, hjknown⟩
      · obtain ⟨text, htext, hdecode⟩ := resources_roundtrip
          (fun hnil => hne id (hnil ▸ hknown)) (h.fits hknown)
        rw [fallback_some (hwritten.trans htext), hdecode]
        rfl
      · -- the row it refers to has not been touched
        obtain ⟨g, hg, hread⟩ := Option.bind_eq_some_iff.mp (h.row j resources hjknown)
        obtain ⟨text, htext⟩ := Option.ne_none_iff_exists'.mp
          (h.own j g hj (by rw [hjknown]; exact Option.some_ne_none _) hown hg)
        rw [fallback_none hnone, href, Option.bind_some, hother j hj, hg]
        rw [fallback_some htext] at hread
        show (decodeResources (splitString g.resources resourceSep false)).toOption = _
        rw [htext]
        exact hread
    · obtain ⟨f, hf, hread⟩ := Option.bind_eq_some_iff.mp (h.row id rs hrs)
      have hapart := h.apart id f hid (by rw [hrs]; exact Option.some_ne_none _) hf
      refine Option.bind_eq_some_iff.mpr ⟨f, (hother id hid).trans hf, ?_⟩
      rcases hown : f.resources with _ | text
      · rw [fallback_none hown] at hread ⊢
        rcases href : f.refID with _ | j
        · rw [href] at hread
          exact hread
        · have hj : j ≠ item := fun hj => hapart (hj ▸ href)
          rw [href, Option.bind_some] at hread
          rw [Option.bind_some, hother j hj]
          exact hread
      · rw [fallback_some hown] at hread ⊢
        exact hread
  · exact h.apart id f hid hk ((hother id hid).symm.trans hf)
  · exact h.own id f hid hk hown ((hother id hid).symm.trans hf)
  · obtain ⟨f₀, hf₀, rfl⟩ := Option.map_eq_some_iff.mp ((hfind item).symm.trans hf)
    rw [if_pos (Lib.Table.find?_eq_some.mp hf₀).2]
    exact (hcols f₀).1

/-- An UPDATE that touches neither the resources nor the references. -/
theorem KnownResources.updateObjects (h : KnownResources item known owned s)
    {g : ObjectRow → ObjectRow} {hg : ∀ r, (g r).id = r.id}
    (hresources : ∀ r, (g r).resources = r.resources) (href : ∀ r, (g r).refID = r.refID)
    (htype : ∀ r, (g r).objectType = r.objectType) :
    KnownResources item known owned { s with db := s.db.updateObjects g hg } := by
  have hfind : ∀ id f, (s.db.updateObjects g hg).objects.find? id = some f →
      ∃ f₀, s.db.objects.find? id = some f₀ ∧ g f₀ = f := by
    intro id f hf
    have hmap := (@Lib.Table.find?_update _ _ _ _ s.db.objects g hg id).symm.trans hf
    exact Option.map_eq_some_iff.mp hmap
  refine ⟨fun id rs hrs => ?_, fun id f hid hk hf => ?_, fun id f hid hk hown hf => ?_,
    fun f hk hf => ?_, h.cached⟩
  · exact (resourcesOf_updateObjects hresources href).trans (h.row id rs hrs)
  · obtain ⟨f₀, hf₀, rfl⟩ := hfind id f hf
    rw [href]
    exact h.apart id f₀ hid hk hf₀
  · obtain ⟨f₀, hf₀, rfl⟩ := hfind id f hf
    rw [hresources]
    exact h.own id f₀ hid hk hown hf₀
  · obtain ⟨f₀, hf₀, rfl⟩ := hfind item f hf
    rw [htype]
    exact h.active f₀ hk hf₀

/-- **The reference of an object keeps its resources**: it is another object, which either has the
    object's resources itself, or other ones, so that the object's own are written. -/
def ReferenceKeeps (item : Int) (known : Int → Option (List CdsResource)) (owned : Int → Prop)
    (obj : CdsObject) : Prop :=
  obj.getFlag objectFlagPlaylistRef = false → 0 < obj.refID →
    obj.getFlag objectFlagOnlineService = true →
    obj.refID ≠ item ∧ ∃ resources, known obj.refID = some resources ∧
      ((owned obj.refID ∧ resources = obj.resources) ∨
        (obj.getFlag objectFlagUseResourceRef = false ∧
          CdsObject.resourcesEqual { obj with resources := resources } obj = false))

variable {obj : CdsObject} {itemData : CdsItemData}

/-- What has been found out about the reference of an object that is no file. -/
def FoundReference (item : Int) (known : Int → Option (List CdsResource)) (owned : Int → Prop)
    (obj : CdsObject) (ref : ObjectReference) : Prop :=
  ∀ refObj, ref.hasReference = some refObj → ref.refObj = some refObj ∧ refObj.id ≠ item ∧
    known refObj.id = some refObj.resources ∧
    ((owned refObj.id ∧ refObj.resources = obj.resources) ∨
      (obj.getFlag objectFlagUseResourceRef = false ∧ refObj.resourcesEqual obj = false))

theorem known_resolveReference (hne : ∀ id, known id ≠ some [])
    (hpure : isCdsPureItem obj.objectType = false)
    (hkeeps : ReferenceKeeps item known owned obj) :
    Triple (KnownResources item known owned) (resolveReference obj)
      (fun ref s => KnownResources item known owned s ∧ FoundReference item known owned obj ref)
      (KnownResources item known owned) := by
  unfold resolveReference
  rw [hpure, Bool.and_false]
  by_cases hplaylist : obj.getFlag objectFlagPlaylistRef = true
  · rw [if_pos hplaylist, if_neg Bool.false_ne_true]
    split
    · exact triple_throw fun _ h => h
    · refine triple_bind (known_loadObject hne _) fun refObj => triple_pure fun s h => ⟨h.1, ?_⟩
      intro _ hnone
      cases hnone
  · rw [if_neg hplaylist, if_neg Bool.false_ne_true]
    by_cases href : 0 < obj.refID
    · rw [if_pos href]
      by_cases honline : obj.getFlag objectFlagOnlineService = true
      · rw [if_pos honline]
        obtain ⟨hitem, resources, hknown, hsame⟩ :=
          hkeeps (Bool.eq_false_iff.mpr hplaylist) href honline
        refine triple_bind (known_loadObject hne _) fun refObj => triple_pure fun s h => ⟨h.1, ?_⟩
        obtain ⟨hid, hasKnown, -⟩ := h.2 (by rw [hknown]; exact Option.some_ne_none _)
        have hresources : refObj.resources = resources := hasKnown resources (hid ▸ hknown)
        intro refObj' hrefObj
        cases hrefObj
        rw [hid, hresources]
        refine ⟨rfl, hitem, hknown, ?_⟩
        rcases hsame with hown | ⟨hflag, hdiffer⟩
        · exact Or.inl hown
        · refine Or.inr ⟨hflag, ?_⟩
          unfold CdsObject.resourcesEqual at hdiffer ⊢
          rw [hresources]
          exact hdiffer
      · rw [if_neg honline]
        split
        · refine triple_pure fun s h => ⟨h, ?_⟩
          intro _ hnone
          cases hnone
        · exact triple_throw fun _ h => h
    · rw [if_neg href]
      refine triple_pure fun s h => ⟨h, ?_⟩
      intro _ hnone
      cases hnone

/-- An item that is no file is placed where it is. -/
theorem placeObject_other {P : StorageState → Prop} (hitem : obj.kind.itemData? = some itemData)
    (hpure : isCdsPureItem obj.objectType = false) (hasReference : Option CdsObject)
    (cols : ObjectColumns) :
    Triple P (placeObject true obj hasReference cols)
      (fun placed s => P s ∧ placed.1.resources = cols.resources ∧ placed.1.refID = cols.refID ∧
        placed.1.objectType = cols.objectType ∧ placed.2.1 = obj) P := by
  unfold placeObject
  rw [hitem]
  have hplace : Triple P (placeItem true obj hasReference cols)
      (fun placed s => P s ∧ placed.1.resources = cols.resources ∧ placed.1.refID = cols.refID ∧
        placed.1.objectType = cols.objectType ∧ placed.2.1 = obj) P := by
    unfold placeItem
    rw [hpure]
    split
    · exact triple_pure fun s h => ⟨h, rfl, rfl, rfl, rfl⟩
    · split
      · exact triple_throw fun _ h => h
      · exact triple_throw fun _ h => h
      · exact triple_pure fun s h => ⟨h, rfl, rfl, rfl, rfl⟩
  refine triple_bind hplace fun placed => triple_pure fun s h => ?_
  exact h

/-- What an UPDATE of the object writes of its resources. -/
theorem rowHas_columns {ref : ObjectReference} (hfound : FoundReference item known owned obj ref)
    {cols : ObjectColumns} (hactive : obj.objectType = activeItemType)
    (htype : cols.objectType = (commonColumns true obj ref).objectType)
    (hresources : cols.resources = (commonColumns true obj ref).resources)
    (href : cols.refID = (commonColumns true obj ref).refID) (old : ObjectRow) :
    RowHas item known owned obj.resources (cols.apply old) := by
  have hcolumn : Column (LeavesResources obj ref) (cols.apply old).resources
      (encodeResources obj.resources) := by
    show Column _ (cols.resources.getD old.resources) _
    rw [hresources]
    exact lists_resources.column fun h => absurd h Bool.noConfusion
  constructor
  · show cols.objectType.getD old.objectType = activeItemType
    rw [htype, ← hactive]
    rfl
  by_cases hleaves : LeavesResources obj ref
  · right
    refine ⟨hcolumn.1 hleaves, ?_⟩
    obtain ⟨refObj, hreference, hsame⟩ := hleaves
    obtain ⟨hrefObj, hother, hrefKnown, hown⟩ := hfound refObj hreference
    refine ⟨refObj.id, ?_, hother, ?_⟩
    · show cols.refID.getD old.refID = some refObj.id
      rw [href]
      unfold commonColumns
      simp only
      rw [hrefObj]
      rfl
    · rcases hown with ⟨hown, hequal⟩ | ⟨hflag, hdiffer⟩
      · exact ⟨hown, hequal ▸ hrefKnown⟩
      · rcases hsame with h | h
        · rw [hflag] at h
          cases h
        · rw [hdiffer] at h
          cases h
  · exact Or.inl (hcolumn.2 hleaves)

/-- The type is the type of this class only. -/
theorem kind_of_active (h : obj.objectType = activeItemType) :
    ∃ itemData action state, obj.kind = .activeItem itemData action state := by
  unfold CdsObject.objectType at h
  cases hkind : obj.kind with
  | activeItem itemData action state => exact ⟨itemData, action, state, rfl⟩
  | container u c a =>
    rw [hkind] at h
    exact absurd h (show ¬objectTypeContainer = activeItemType by decide)
  | item d =>
    rw [hkind] at h
    exact absurd h (show ¬objectTypeItem = activeItemType by decide)
  | itemExternalURL d =>
    rw [hkind] at h
    exact absurd h
      (show ¬(objectTypeItem ||| objectTypeItemExternalURL) = activeItemType by decide)
  | itemInternalURL d =>
    rw [hkind] at h
    exact absurd h (show ¬(objectTypeItem ||| objectTypeItemExternalURL |||
      objectTypeItemInternalURL) = activeItemType by decide)

theorem known_addUpdateObject_ (hne : ∀ id, known id ≠ some [])
    (hactive : obj.objectType = activeItemType) (hkeeps : ReferenceKeeps item known owned obj) :
    Triple (KnownResources item known owned) (addUpdateObject_ obj true)
      (fun r s => KnownResources item known owned s ∧
        r.obj = obj.clearFlag objectFlagUseResourceRef ∧ ∀ cols, r.data = some cols →
          ∀ old, RowHas item known owned obj.resources (cols.apply old))
      (KnownResources item known owned) := by
  have hpure : isCdsPureItem obj.objectType = false := by
    rw [hactive]
    decide
  refine triple_bind (known_resolveReference hne hpure hkeeps) fun ref => ?_
  intro s ⟨h, hfound⟩
  obtain ⟨itemData, action, state, hkind⟩ := kind_of_active hactive
  have hitem : (obj.clearFlag objectFlagUseResourceRef).kind.itemData? = some itemData := by
    show obj.kind.itemData? = _
    rw [hkind]
    rfl
  refine triple_bind (placeObject_other (P := KnownResources item known owned) hitem hpure
    ref.hasReference (commonColumns true obj ref)) (fun placed => ?_) s h
  intro t ⟨ht, hresources, href, htype, hobj⟩
  refine triple_bind (M := fun _ => KnownResources item known owned) ?_ (fun duplicates => ?_) t ht
  · -- nothing is searched for in an update
    unfold selectDuplicates
    split
    · next hcontra => cases hcontra
    · exact triple_pure fun _ h => h
  · split_ifs
    · refine triple_pure fun s h => ⟨h, hobj, fun cols hcols => ?_⟩
      cases hcols
    · exact triple_throw fun _ h => h
    · refine triple_pure fun s h => ⟨h, hobj, fun cols hcols => ?_⟩
      cases hcols
      exact rowHas_columns hfound hactive htype hresources href

theorem asKnown_item (hid : obj.id = item) (hknown : known item = some obj.resources)
    (hactive : obj.objectType = activeItemType) : AsKnown item known obj := by
  refine ⟨fun resources hresources => ?_, fun _ _ => hactive⟩
  rw [hid, hknown] at hresources
  exact Option.some.inj hresources

theorem known_writeObject (hne : ∀ id, known id ≠ some []) {cols : ObjectColumns}
    (hid : obj.id = item) (hknown : known item = some obj.resources)
    (hactive : obj.objectType = activeItemType)
    (hcols : ∀ old, RowHas item known owned obj.resources (cols.apply old)) :
    Triple (KnownResources item known owned) (writeObject cols obj)
      (fun _ => KnownResources item known owned) (KnownResources item known owned) := by
  have has : AsKnown item known obj := asKnown_item hid hknown hactive
  refine triple_bind (M := fun _ => KnownResources item known owned)
    (triple_modify fun s h => ?_) fun _ => ?_
  · rw [hid]
    exact h.update hne hknown hcols
  · have hcache : Triple (KnownResources item known owned) (addObjectToCache obj)
        (fun _ => KnownResources item known owned) (KnownResources item known owned) :=
      (known_addObjectToCache hne has).triple
    rcases activeItemValues obj.kind with _ | ⟨action, state⟩
    · exact hcache
    · have hactive : Triple (KnownResources item known owned)
          (exec fun db => db.updateActiveItem { id := obj.id, action := action, state := state })
          (fun _ => KnownResources item known owned) (KnownResources item known owned) :=
        triple_modify fun s h => ⟨h.row, h.apart, h.own, h.active, h.cached⟩
      exact triple_bind hactive fun _ => hcache

/-- **`updateObject`** of the item, with its resources. -/
theorem known_updateObject (hne : ∀ id, known id ≠ some [])
    (hactive : obj.objectType = activeItemType) (hid : obj.id = item)
    (hknown : known item = some obj.resources)
    (hkeeps : ReferenceKeeps item known owned obj) :
    Triple (KnownResources item known owned) (updateObject obj)
      (fun _ => KnownResources item known owned) (KnownResources item known owned) := by
  have has : AsKnown item known obj := asKnown_item hid hknown hactive
  refine triple_bind (M := fun _ => KnownResources item known owned) (known_flush hne).triple
    fun _ => ?_
  by_cases hroot : obj.id = cdsIdFsRoot
  · rw [if_pos hroot]
    refine triple_bind (M := fun _ => KnownResources item known owned) ?_ fun _ => ?_
    · unfold setFsRootName
      split
      · exact triple_modify fun s h => ⟨h.row, h.apart, h.own, h.active, h.cached⟩
      · refine triple_bind (known_loadObject hne _) fun root => ?_
        exact triple_modify fun s h => ⟨h.1.row, h.1.apart, h.1.own, h.1.active, h.1.cached⟩
    · refine triple_bind (M := fun _ => KnownResources item known owned)
        (triple_modify fun s h => h.updateObjects ?_ ?_ ?_) fun _ => ?_
      · intro r
        split
        · rfl
        · rfl
      · intro r
        split
        · rfl
        · rfl
      · intro r
        split
        · rfl
        · rfl
      · refine triple_bind (M := fun _ => KnownResources item known owned)
          (known_addObjectToCache hne has).triple fun _ => ?_
        exact triple_pure fun _ h => h
  · rw [if_neg hroot]
    split
    · exact triple_throw fun _ h => h
    · refine triple_bind (known_addUpdateObject_ hne hactive hkeeps) fun r => ?_
      intro s ⟨h, hobj, hcols⟩
      rcases hdata : r.data with _ | cols
      · exact h
      · have hid' : r.obj.id = item := by
          rw [hobj]
          exact hid
        have hresources : r.obj.resources = obj.resources := by
          rw [hobj]
          rfl
        have hactive' : r.obj.objectType = activeItemType := by
          rw [hobj]
          exact hactive
        have hwrite := known_writeObject hne hid' (hresources ▸ hknown) hactive'
          (hresources ▸ hcols cols hdata)
        have hchanged : Triple (KnownResources item known owned)
            (pure r.changedContainer : Storage (Option Int))
            (fun _ => KnownResources item known owned) (KnownResources item known owned) :=
          triple_pure fun _ h => h
        exact triple_bind hwrite (fun _ => hchanged) s h

end

end MediaTomb
