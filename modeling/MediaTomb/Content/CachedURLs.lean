/-
  The URL cache of the content manager (`content_manager.cc`, `cached_url.cc`).

  At most twenty URLs, one for an object.  A new one takes the place of the one that was not asked
  for for the longest time, and a timer drops what nobody has asked for in ten minutes.

  Two places count wrong:
    * `cacheURL` looks for an entry that is STRICTLY older than now.  When all twenty were used in
      this very second there is none, and it throws;
    * the loop of `checkCachedURLs` counts its rounds against a size that shrinks with every entry
      it drops, so that it stops before it has seen all.  `examined` is the order in which it goes
      through the array: the front, and after a dropped entry the one that was last.
-/
import MediaTomb.ArrayBase
import MediaTomb.Tools
import MediaTomb.Lib.Machine

namespace MediaTomb

open Lib.Machine

structure CachedURL where
  objectID : Int
  url : Str
  lastAccess : Int
  deriving DecidableEq

namespace CachedURL

/-- `MAX_CACHED_URLS` -/
def maxCachedURLs : Nat := 20

/-- `URL_CACHE_LIFETIME` -/
def urlCacheLifetime : Int := 600

/-! ## Operations -/

/-- The loop of `cacheURL`: where the object is already, and where the oldest entry so far is. -/
def cacheLoop (url : CachedURL) : Nat → Int → Option Nat → List CachedURL →
    Option Nat × Option Nat
  | _, _, oldestIndex, [] => (none, oldestIndex)
  | i, oldest, oldestIndex, cached :: rest =>
    let oldestIndex := if cached.lastAccess < oldest then some i else oldestIndex
    let oldest := if cached.lastAccess < oldest then cached.lastAccess else oldest
    if url.objectID = cached.objectID then (some i, oldestIndex)
    else cacheLoop url (i + 1) oldest oldestIndex rest

/-- `cacheURL`; `none` is `_Exception("Index exceeds URL cache size: ")`. -/
def cacheURL (now : Int) (urls : List CachedURL) (url : CachedURL) : Option (List CachedURL) :=
  match cacheLoop url 0 now none urls with
  | (some i, _) => some (urls.set i url)
  | (none, oldestIndex) =>
    if maxCachedURLs ≤ urls.length then
      match oldestIndex with
      | some i =>
        if i ≤ maxCachedURLs then some (ArrayBase.removeUnordered urls i ++ [url]) else none
      | none => none
    else some (urls ++ [url])

/-- `getCachedURL`: the entry that is found has been accessed. -/
def getCachedURL (now : Int) (objectID : Int) : List CachedURL → Option Str × List CachedURL
  | [] => (none, [])
  | cached :: rest =>
    if cached.objectID = objectID then (some cached.url, { cached with lastAccess := now } :: rest)
    else ((getCachedURL now objectID rest).1, cached :: (getCachedURL now objectID rest).2)

def expired (now : Int) (cached : CachedURL) : Bool :=
  cached.lastAccess + urlCacheLifetime < now

/-- The loop of `checkCachedURLs`: `count` rounds have been made, the entry at `i` is next. -/
def checkLoop (now : Int) : Nat → Nat → Nat → List CachedURL → List CachedURL
  | 0, _, _, urls => urls
  | fuel + 1, count, i, urls =>
    if count < urls.length then
      match urls[i]? with
      | none => urls
      | some cached =>
        if expired now cached then
          checkLoop now fuel (count + 1) i (ArrayBase.removeUnordered urls i)
        else checkLoop now fuel (count + 1) (i + 1) urls
    else urls

/-- `checkCachedURLs`; no more rounds are made than there are entries. -/
def checkCachedURLs (now : Int) (urls : List CachedURL) : List CachedURL :=
  checkLoop now urls.length 0 0 urls

/-! ## The machine -/

structure Cache where
  urls : List CachedURL := []
  /-- the time of the last call -/
  clock : Int

inductive Event where
  /-- a URL that was looked up before now -/
  | cacheURL (now : Int) (url : CachedURL)
  | getCachedURL (now : Int) (objectID : Int)
  | checkCachedURLs (now : Int)

namespace Cache

/-- Times do not decrease. -/
def InTime (s : Cache) : Event → Prop
  | .cacheURL now url => s.clock ≤ now ∧ url.lastAccess ≤ now
  | .getCachedURL now _ => s.clock ≤ now
  | .checkCachedURLs now => s.clock ≤ now

instance (s : Cache) : (e : Event) → Decidable (s.InTime e)
  | .cacheURL _ _ => inferInstanceAs (Decidable (_ ∧ _))
  | .getCachedURL _ _ => inferInstanceAs (Decidable (_ ≤ _))
  | .checkCachedURLs _ => inferInstanceAs (Decidable (_ ≤ _))

/-- A call that throws leaves the array as it was. -/
def after (s : Cache) : Event → Cache
  | .cacheURL now url => ⟨(CachedURL.cacheURL now s.urls url).getD s.urls, now⟩
  | .getCachedURL now objectID => ⟨(CachedURL.getCachedURL now objectID s.urls).2, now⟩
  | .checkCachedURLs now => ⟨CachedURL.checkCachedURLs now s.urls, now⟩

def step (s : Cache) (e : Event) : Option Cache := if s.InTime e then some (s.after e) else none

end Cache

/-! ## What is meant -/

/-- At most twenty entries, one for an object. -/
structure Small (urls : List CachedURL) : Prop where
  size : urls.length ≤ maxCachedURLs
  nodup : (urls.map objectID).Nodup

/-- What is gone for the new URL was the oldest. -/
def EvictsOldest (urls urls' : List CachedURL) (url : CachedURL) : Prop :=
  ∀ cached ∈ urls, cached.objectID ≠ url.objectID → cached ∉ urls' →
    ∀ other ∈ urls, cached.lastAccess ≤ other.lastAccess

/-- What the call has to do. -/
def DoesRight (s : Cache) : Event → Prop
  | .cacheURL now url => ∃ urls', cacheURL now s.urls url = some urls' ∧ Small urls' ∧
      EvictsOldest s.urls urls' url ∧
      ∀ later, (getCachedURL later url.objectID urls').1 = some url.url
  | .getCachedURL now objectID => Small (getCachedURL now objectID s.urls).2
  | .checkCachedURLs now => Small (checkCachedURLs now s.urls) ∧
      ∀ cached ∈ checkCachedURLs now s.urls, expired now cached = false

/-- The order in which the loop of `checkCachedURLs` goes through the array, if it goes on. -/
def examinedFrom (now : Int) : Nat → List CachedURL → List CachedURL
  | 0, _ => []
  | _ + 1, [] => []
  | n + 1, cached :: rest =>
    cached :: examinedFrom now n
      (if expired now cached then ArrayBase.removeUnordered (cached :: rest) 0 else rest)

def examined (now : Int) (urls : List CachedURL) : List CachedURL :=
  examinedFrom now urls.length urls

/-- Every expired entry comes early enough: what is examined before it, the expired ones counted
    twice, is less than the array. -/
def ExpiredEarly (now : Int) (urls : List CachedURL) : Prop :=
  ∀ before cached rest, examined now urls = before ++ cached :: rest → expired now cached = true →
    before.length + before.countP (expired now) < urls.length

/-- **The condition.** -/
def Fine (s : Cache) : Event → Prop
  | .cacheURL now url => (∃ cached ∈ s.urls, cached.objectID = url.objectID) ∨
      s.urls.length < maxCachedURLs ∨ ∃ cached ∈ s.urls, cached.lastAccess < now
  | .getCachedURL _ _ => True
  | .checkCachedURLs now => ExpiredEarly now s.urls

section

variable {now oldest : Int} {i count fuel : Nat} {oldestIndex : Option Nat}
  {urls urls' kept rest : List CachedURL} {url cached : CachedURL}

/-! ## `cacheURL` -/

/-- The object is found. -/
theorem cacheLoop_found {j : Nat} {k : Option Nat}
    (h : cacheLoop url i oldest oldestIndex urls = (some j, k)) :
    ∃ before cached after, urls = before ++ cached :: after ∧ j = i + before.length ∧
      cached.objectID = url.objectID := by
  induction urls generalizing i oldest oldestIndex with
  | nil => cases h
  | cons first rest ih =>
    unfold cacheLoop at h
    simp only at h
    by_cases hsame : url.objectID = first.objectID
    · rw [if_pos hsame] at h
      cases h
      exact ⟨[], first, rest, rfl, rfl, hsame.symm⟩
    · rw [if_neg hsame] at h
      obtain ⟨before, cached, after, rfl, rfl, hid⟩ := ih h
      refine ⟨first :: before, cached, after, rfl, ?_, hid⟩
      rw [List.length_cons]
      omega

/-- It is not found: the index is that of an oldest entry, if one is older than `oldest`. -/
theorem cacheLoop_new {k : Option Nat}
    (h : cacheLoop url i oldest oldestIndex urls = (none, k)) :
    (∀ cached ∈ urls, cached.objectID ≠ url.objectID) ∧
      ((k = oldestIndex ∧ ∀ cached ∈ urls, oldest ≤ cached.lastAccess) ∨
        ∃ before cached after, urls = before ++ cached :: after ∧ k = some (i + before.length) ∧
          cached.lastAccess < oldest ∧ ∀ other ∈ urls, cached.lastAccess ≤ other.lastAccess) := by
  induction urls generalizing i oldest oldestIndex with
  | nil =>
    cases h
    exact ⟨fun _ hmem => absurd hmem List.not_mem_nil,
      Or.inl ⟨rfl, fun _ hmem => absurd hmem List.not_mem_nil⟩⟩
  | cons first rest ih =>
    unfold cacheLoop at h
    simp only at h
    by_cases hsame : url.objectID = first.objectID
    · rw [if_pos hsame] at h
      cases h
    rw [if_neg hsame] at h
    split_ifs at h with holder
    · -- the first entry is older than what was found before
      obtain ⟨hids, hk⟩ := ih h
      refine ⟨List.forall_mem_cons.mpr ⟨fun heq => hsame heq.symm, hids⟩, Or.inr ?_⟩
      rcases hk with ⟨rfl, hall⟩ | ⟨before, cached, after, rfl, rfl, hlt, hall⟩
      · exact ⟨[], first, rest, rfl, rfl, holder,
          List.forall_mem_cons.mpr ⟨Int.le_refl _, hall⟩⟩
      · refine ⟨first :: before, cached, after, rfl, ?_, Int.lt_trans hlt holder,
          List.forall_mem_cons.mpr ⟨Int.le_of_lt hlt, hall⟩⟩
        rw [List.length_cons]
        congr 1
        omega
    · obtain ⟨hids, hk⟩ := ih h
      refine ⟨List.forall_mem_cons.mpr ⟨fun heq => hsame heq.symm, hids⟩, ?_⟩
      rcases hk with ⟨rfl, hall⟩ | ⟨before, cached, after, rfl, rfl, hlt, hall⟩
      · exact Or.inl ⟨rfl, List.forall_mem_cons.mpr ⟨Int.not_lt.mp holder, hall⟩⟩
      · refine Or.inr ⟨first :: before, cached, after, rfl, ?_, hlt, List.forall_mem_cons.mpr
          ⟨Int.le_trans (Int.le_of_lt hlt) (Int.not_lt.mp holder), hall⟩⟩
        rw [List.length_cons]
        congr 1
        omega

/-- The ways in which `cacheURL` ends. -/
theorem cacheURL_cases (now : Int) (urls : List CachedURL) (url : CachedURL) :
    (∃ before cached after, urls = before ++ cached :: after ∧
      cached.objectID = url.objectID ∧ cacheURL now urls url = some (before ++ url :: after)) ∨
    ((∀ cached ∈ urls, cached.objectID ≠ url.objectID) ∧
      ((urls.length < maxCachedURLs ∧ cacheURL now urls url = some (urls ++ [url])) ∨
       (maxCachedURLs ≤ urls.length ∧ (∀ cached ∈ urls, now ≤ cached.lastAccess) ∧
          cacheURL now urls url = none) ∨
       ∃ before cached after, urls = before ++ cached :: after ∧ cached.lastAccess < now ∧
          (∀ other ∈ urls, cached.lastAccess ≤ other.lastAccess) ∧
          maxCachedURLs ≤ urls.length ∧
          cacheURL now urls url = if before.length ≤ maxCachedURLs then
            some (ArrayBase.removeUnordered urls before.length ++ [url]) else none)) := by
  unfold cacheURL
  rcases hloop : cacheLoop url 0 now none urls with ⟨found, k⟩
  cases found with
  | some j =>
    obtain ⟨before, cached, after, rfl, rfl, hid⟩ := cacheLoop_found hloop
    refine Or.inl ⟨before, cached, after, rfl, hid, ?_⟩
    simp only
    rw [Nat.zero_add, List.set_append_right _ _ (Nat.le_refl _), Nat.sub_self, List.set_cons_zero]
  | none =>
    obtain ⟨hids, hk⟩ := cacheLoop_new hloop
    refine Or.inr ⟨hids, ?_⟩
    rcases Nat.lt_or_ge urls.length maxCachedURLs with hlt | hge
    · refine Or.inl ⟨hlt, ?_⟩
      simp only
      rw [if_neg (Nat.not_le.mpr hlt)]
    · refine Or.inr ?_
      simp only
      rw [if_pos hge]
      rcases hk with ⟨rfl, hall⟩ | ⟨before, cached, after, rfl, rfl, hlt, hall⟩
      · exact Or.inl ⟨hge, hall, rfl⟩
      · refine Or.inr ⟨before, cached, after, rfl, hlt, hall, hge, ?_⟩
        simp only
        rw [Nat.zero_add]

theorem getCachedURL_fst {objectID : Int} (later : Int) :
    (getCachedURL later objectID urls).1 =
      (urls.find? fun cached => cached.objectID = objectID).map CachedURL.url := by
  induction urls with
  | nil => rfl
  | cons first rest ih =>
    unfold getCachedURL
    rw [List.find?_cons]
    by_cases hsame : first.objectID = objectID
    · rw [if_pos hsame, decide_eq_true hsame]
      rfl
    · rw [if_neg hsame, decide_eq_false hsame]
      exact ih

/-- The object's own URL is what is found. -/
theorem getCachedURL_mem (hnodup : (urls.map objectID).Nodup) (hmem : url ∈ urls) (later : Int) :
    (getCachedURL later url.objectID urls).1 = some url.url := by
  rw [getCachedURL_fst]
  cases hfind : urls.find? fun cached => cached.objectID = url.objectID with
  | none =>
    have hnone := List.find?_eq_none.mp hfind url hmem
    exact absurd (decide_eq_true rfl) hnone
  | some cached =>
    have hid : cached.objectID = url.objectID := of_decide_eq_true
      (List.find?_some (p := fun c : CachedURL => decide (c.objectID = url.objectID)) hfind)
    have hsame : cached = url :=
      List.inj_on_of_nodup_map hnodup (List.mem_of_find?_eq_some hfind) hmem hid
    rw [hsame]
    rfl

theorem map_getCachedURL {objectID : Int} :
    (getCachedURL now objectID urls).2.map CachedURL.objectID = urls.map CachedURL.objectID := by
  induction urls with
  | nil => rfl
  | cons first rest ih =>
    unfold getCachedURL
    split_ifs
    · rfl
    · rw [List.map_cons, List.map_cons, ih]

/-- **`cacheURL` does right unless it throws.** -/
theorem cacheURL_right (hsmall : Small urls) (h : cacheURL now urls url = some urls') :
    Small urls' ∧ EvictsOldest urls urls' url ∧ url ∈ urls' := by
  rcases cacheURL_cases now urls url with ⟨before, cached, after, rfl, hid, heq⟩ |
    ⟨hids, ⟨hlt, heq⟩ | ⟨-, -, heq⟩ | ⟨before, cached, after, rfl, -, hall, hge, heq⟩⟩
  · rw [h] at heq
    cases heq
    refine ⟨⟨?_, ?_⟩, fun other hmem hne hgone => ?_, ?_⟩
    · have hsize := hsmall.size
      rw [List.length_append, List.length_cons] at hsize ⊢
      exact hsize
    · have hnodup := hsmall.nodup
      rw [List.map_append, List.map_cons, hid] at hnodup
      rw [List.map_append, List.map_cons]
      exact hnodup
    · -- nothing is gone but the entry of the same object
      refine absurd ?_ hgone
      rcases List.mem_append.mp hmem with hleft | hright
      · exact List.mem_append_left _ hleft
      · rcases List.mem_cons.mp hright with rfl | hright
        · exact absurd hid hne
        · exact List.mem_append_right _ (List.mem_cons_of_mem _ hright)
    · exact List.mem_append_right _ List.mem_cons_self
  · rw [h] at heq
    cases heq
    refine ⟨⟨?_, ?_⟩, fun other hmem _ hgone => absurd (List.mem_append_left _ hmem) hgone,
      List.mem_append_right _ List.mem_cons_self⟩
    · rw [List.length_append, List.length_singleton]
      exact hlt
    · rw [List.map_append, List.map_singleton]
      refine List.nodup_append.mpr ⟨hsmall.nodup, List.nodup_singleton _, fun id hid other hother => ?_⟩
      rw [List.mem_singleton] at hother
      obtain ⟨cached, hmem, rfl⟩ := List.mem_map.mp hid
      rw [hother]
      exact hids cached hmem
  · rw [h] at heq
    cases heq
  · rw [h] at heq
    split_ifs at heq with hindex
    cases heq
    have hperm := @ArrayBase.removeUnordered_perm _ before after cached
    have hmem : ∀ other, other ∈ ArrayBase.removeUnordered (before ++ cached :: after) before.length →
        other ∈ before ++ cached :: after :=
      fun other hother => hperm.mem_iff.mp (List.mem_cons_of_mem _ hother)
    refine ⟨⟨?_, ?_⟩, fun other hother _ hgone => ?_, List.mem_append_right _ List.mem_cons_self⟩
    · have hlength := hperm.length_eq
      rw [List.length_cons] at hlength
      rw [List.length_append, List.length_singleton, hlength]
      exact hsmall.size
    · have hnodup := ((hperm.map objectID).nodup_iff).mpr hsmall.nodup
      rw [List.map_cons] at hnodup
      rw [List.map_append, List.map_singleton]
      refine List.nodup_append.mpr ⟨(List.nodup_cons.mp hnodup).2, List.nodup_singleton _,
        fun id hid other hother => ?_⟩
      rw [List.mem_singleton] at hother
      obtain ⟨entry, hentry, rfl⟩ := List.mem_map.mp hid
      rw [hother]
      exact hids entry (hmem entry hentry)
    · rcases List.mem_cons.mp (hperm.mem_iff.mpr hother) with rfl | hstays
      · exact hall
      · exact absurd (List.mem_append_left _ hstays) hgone

/-- **When `cacheURL` throws.** -/
theorem cacheURL_isSome_iff (hsmall : Small urls) : (∃ urls', cacheURL now urls url = some urls') ↔
    (∃ cached ∈ urls, cached.objectID = url.objectID) ∨ urls.length < maxCachedURLs ∨
      ∃ cached ∈ urls, cached.lastAccess < now := by
  rcases cacheURL_cases now urls url with ⟨before, cached, after, rfl, hid, heq⟩ |
    ⟨hids, ⟨hlt, heq⟩ | ⟨hge, hall, heq⟩ | ⟨before, cached, after, rfl, hlt, hall, hge, heq⟩⟩
  · exact ⟨fun _ => Or.inl ⟨cached, List.mem_append_right _ List.mem_cons_self, hid⟩,
      fun _ => ⟨_, heq⟩⟩
  · exact ⟨fun _ => Or.inr (Or.inl hlt), fun _ => ⟨_, heq⟩⟩
  · rw [heq]
    constructor
    · rintro ⟨urls', hnone⟩
      cases hnone
    · rintro (⟨cached, hmem, hid⟩ | hlt | ⟨cached, hmem, holder⟩)
      · exact absurd hid (hids cached hmem)
      · omega
      · exact absurd holder (Int.not_lt.mpr (hall cached hmem))
  · have hindex : before.length ≤ maxCachedURLs := by
      have hsize := hsmall.size
      rw [List.length_append] at hsize
      omega
    rw [if_pos hindex] at heq
    exact ⟨fun _ => Or.inr (Or.inr ⟨cached, List.mem_append_right _ List.mem_cons_self, hlt⟩),
      fun _ => ⟨_, heq⟩⟩

/-! ## `checkCachedURLs` -/

theorem removeUnordered_front : (ArrayBase.removeUnordered (cached :: rest) 0).Perm rest := by
  have hperm := @ArrayBase.removeUnordered_perm _ [] rest cached
  exact (List.perm_cons cached).mp hperm

/-- In the middle of the array it is the same. -/
theorem removeUnordered_kept : ArrayBase.removeUnordered (kept ++ cached :: rest) kept.length =
    kept ++ ArrayBase.removeUnordered (cached :: rest) 0 := by
  rcases List.eq_nil_or_concat rest with rfl | ⟨init, last, rfl⟩
  · rw [ArrayBase.removeUnordered_last]
    exact (List.append_nil kept).symm
  · rw [List.concat_eq_append, ArrayBase.removeUnordered_middle]
    exact congrArg (kept ++ ·) (@ArrayBase.removeUnordered_middle _ [] init cached last).symm

/-- All are examined, each once. -/
theorem examinedFrom_perm {n : Nat} (hn : urls.length = n) :
    (examinedFrom now n urls).Perm urls := by
  induction n generalizing urls with
  | zero =>
    rw [List.eq_nil_of_length_eq_zero hn]
    exact List.Perm.refl _
  | succ n ih =>
    cases urls with
    | nil => cases hn
    | cons cached rest =>
      have hlength : rest.length = n := Nat.succ.inj hn
      unfold examinedFrom
      apply List.Perm.cons
      split_ifs
      · refine (ih ?_).trans removeUnordered_front
        rw [removeUnordered_front.length_eq]
        exact hlength
      · exact ih hlength

/-- The condition on the part that is left, when `count` rounds have been made and the array has
    `size` entries. -/
def Early (now : Int) (count size : Nat) (order : List CachedURL) : Prop :=
  ∀ before cached rest, order = before ++ cached :: rest → expired now cached = true →
    count + before.length + before.countP (expired now) < size

/-- One more round: the front is not expired, or there is one entry less. -/
theorem early_cons {size : Nat} {order : List CachedURL} (hcount : count < size) :
    Early now count size (cached :: order) ↔
      Early now (count + 1) (if expired now cached then size - 1 else size) order := by
  constructor
  · intro h before other rest heq hexp
    have hlt := h (cached :: before) other rest (congrArg (cached :: ·) heq) hexp
    rw [List.length_cons, List.countP_cons] at hlt
    split_ifs at hlt ⊢ <;> omega
  · intro h before other rest heq hexp
    cases before with
    | nil =>
      rw [List.length_nil, List.countP_nil]
      exact hcount
    | cons first before =>
      obtain ⟨rfl, horder⟩ := List.cons.inj heq
      have hlt := h before other rest horder hexp
      rw [List.length_cons, List.countP_cons]
      split_ifs at hlt ⊢ <;> omega

/-- When the rounds are over, nothing that is left may be expired. -/
theorem early_over {size : Nat} {order : List CachedURL} (hcount : size ≤ count) :
    Early now count size order ↔ ∀ cached ∈ order, expired now cached = false := by
  constructor
  · intro h cached hmem
    obtain ⟨before, rest, heq⟩ := List.append_of_mem hmem
    by_contra hne
    have hlt := h before cached rest heq (Bool.eq_true_of_not_eq_false hne)
    omega
  · intro h before cached rest heq hexp
    have hfalse := h cached (heq ▸ List.mem_append_right _ List.mem_cons_self)
    rw [hexp] at hfalse
    cases hfalse

/-- **The loop**: what it has kept is not expired, and it finds the rest of the expired entries just
    when they come early enough. -/
theorem checkLoop_clean_iff {n : Nat} (hn : rest.length = n)
    (hkept : ∀ cached ∈ kept, expired now cached = false) (hcount : kept.length ≤ count)
    (hfuel : kept.length + rest.length ≤ count + fuel) :
    (∀ cached ∈ checkLoop now fuel count kept.length (kept ++ rest), expired now cached = false) ↔
      Early now count (kept.length + rest.length) (examinedFrom now n rest) := by
  have hover : ∀ {rest : List CachedURL} {kept : List CachedURL} {count n : Nat},
      rest.length = n → (∀ cached ∈ kept, expired now cached = false) →
      kept.length + rest.length ≤ count →
      ((∀ cached ∈ kept ++ rest, expired now cached = false) ↔
        Early now count (kept.length + rest.length) (examinedFrom now n rest)) := by
    intro rest kept count n hn hkept hle
    rw [early_over hle, List.forall_mem_append]
    have hsame : (∀ cached ∈ examinedFrom now n rest, expired now cached = false) ↔
        ∀ cached ∈ rest, expired now cached = false :=
      forall_congr' fun cached => by rw [(examinedFrom_perm hn).mem_iff]
    rw [hsame]
    exact ⟨fun hboth => hboth.2, fun hrest => ⟨hkept, hrest⟩⟩
  induction fuel generalizing kept rest count n with
  | zero =>
    unfold checkLoop
    exact hover hn hkept (by omega)
  | succ fuel ih =>
    unfold checkLoop
    rw [List.length_append]
    split_ifs with hlt
    · cases rest with
      | nil =>
        rw [List.length_nil] at hlt
        omega
      | cons cached rest =>
        have hget : (kept ++ cached :: rest)[kept.length]? = some cached := by
          rw [List.getElem?_append_right (Nat.le_refl _), Nat.sub_self, List.getElem?_cons_zero]
        cases n with
        | zero => cases hn
        | succ n =>
        have hlength : rest.length = n := Nat.succ.inj hn
        unfold examinedFrom
        rw [hget, early_cons hlt]
        simp only
        rw [List.length_cons] at hfuel hlt ⊢
        split_ifs with hexp
        · -- the entry goes, and the last one comes into its place
          have hfront : (ArrayBase.removeUnordered (cached :: rest) 0).length = rest.length :=
            removeUnordered_front.length_eq
          rw [removeUnordered_kept]
          have hih := @ih (count + 1) kept (ArrayBase.removeUnordered (cached :: rest) 0) n
            (hfront.trans hlength) hkept (by omega) (by omega)
          rw [hfront] at hih
          exact hih
        · have hih := @ih (count + 1) (kept ++ [cached]) rest n hlength
            (fun other hmem => by
              rcases List.mem_append.mp hmem with hold | hnew
              · exact hkept other hold
              · rw [List.mem_singleton.mp hnew]
                exact eq_false_of_ne_true hexp)
            (by rw [List.length_append, List.length_singleton]; omega)
            (by rw [List.length_append, List.length_singleton]; omega)
          rw [List.length_append, List.length_singleton, List.append_assoc,
            List.singleton_append] at hih
          rw [Nat.add_assoc, Nat.add_comm 1] at hih
          exact hih
    · exact hover hn hkept (Nat.not_lt.mp hlt)

/-- **When nothing expired is left.** -/
theorem checkCachedURLs_clean_iff :
    (∀ cached ∈ checkCachedURLs now urls, expired now cached = false) ↔ ExpiredEarly now urls := by
  have h : (∀ cached ∈ checkLoop now urls.length 0 ([] : List CachedURL).length ([] ++ urls),
        expired now cached = false) ↔
      Early now 0 (([] : List CachedURL).length + urls.length) (examinedFrom now urls.length urls) :=
    checkLoop_clean_iff rfl (fun _ hmem => absurd hmem List.not_mem_nil) (Nat.le_refl _)
      (by rw [List.length_nil])
  unfold checkCachedURLs ExpiredEarly examined
  rw [List.nil_append, List.length_nil] at h
  rw [h]
  unfold Early
  simp only [Nat.zero_add]

/-- The loop only takes away. -/
theorem checkLoop_subperm : (checkLoop now fuel count i urls).Subperm urls := by
  induction fuel generalizing count i urls with
  | zero => exact List.Subperm.refl _
  | succ fuel ih =>
    unfold checkLoop
    split_ifs
    · split
      · exact List.Subperm.refl _
      · next cached hget =>
        split_ifs
        · have hperm := ArrayBase.removeUnordered_perm_of_get hget
          exact ih.trans ((List.sublist_cons_self _ _).subperm.trans hperm.subperm)
        · exact ih
    · exact List.Subperm.refl _

/-! ## Runs -/

theorem Small.subperm (hsmall : Small urls) (h : urls'.Subperm urls) : Small urls' := by
  refine ⟨Nat.le_trans h.length_le hsmall.size, ?_⟩
  obtain ⟨part, hperm, hsub⟩ := h
  exact (hperm.map objectID).nodup_iff.mp (hsmall.nodup.sublist (hsub.map objectID))

theorem Small.getCachedURL (hsmall : Small urls) (later objectID : Int) :
    Small (getCachedURL later objectID urls).2 := by
  have hmap : (CachedURL.getCachedURL later objectID urls).2.map CachedURL.objectID =
      urls.map CachedURL.objectID := map_getCachedURL
  refine ⟨?_, ?_⟩
  · have hlength := congrArg List.length hmap
    rw [List.length_map, List.length_map] at hlength
    rw [hlength]
    exact hsmall.size
  · rw [hmap]
    exact hsmall.nodup

/-- **A call does right just when the condition holds.** -/
theorem doesRight_iff {s : Cache} {e : Event} (hsmall : Small s.urls) :
    DoesRight s e ↔ Fine s e := by
  cases e with
  | cacheURL now url =>
    refine Iff.trans ?_ (cacheURL_isSome_iff hsmall)
    constructor
    · rintro ⟨urls', heq, -⟩
      exact ⟨urls', heq⟩
    · rintro ⟨urls', heq⟩
      obtain ⟨hsmall', hevicts, hmem⟩ := cacheURL_right hsmall heq
      exact ⟨urls', heq, hsmall', hevicts, fun later => getCachedURL_mem hsmall'.nodup hmem later⟩
  | getCachedURL now objectID => exact ⟨fun _ => trivial, fun _ => hsmall.getCachedURL now objectID⟩
  | checkCachedURLs now =>
    constructor
    · intro hright
      exact checkCachedURLs_clean_iff.mp hright.2
    · intro hfine
      exact ⟨hsmall.subperm checkLoop_subperm, checkCachedURLs_clean_iff.mpr hfine⟩

/-- **The step lemma**: whatever a call does, the array stays small. -/
theorem Small.step {s s' : Cache} {e : Event} (hsmall : Small s.urls)
    (hstep : s.step e = some s') : Small s'.urls := by
  unfold Cache.step at hstep
  split_ifs at hstep
  cases hstep
  cases e with
  | cacheURL now url =>
    show Small ((CachedURL.cacheURL now s.urls url).getD s.urls)
    cases heq : CachedURL.cacheURL now s.urls url with
    | none => exact hsmall
    | some urls' => exact (cacheURL_right hsmall heq).1
  | getCachedURL now objectID => exact hsmall.getCachedURL now objectID
  | checkCachedURLs now => exact hsmall.subperm checkLoop_subperm

theorem small_nil : Small [] := ⟨Nat.zero_le _, List.nodup_nil⟩

theorem small_run {s : Cache} {clock : Int} {events : List Event}
    (hrun : run Cache.step { clock := clock } events = some s) : Small s.urls :=
  run_inv (P := fun s : Cache => Small s.urls) (fun _ _ _ hsmall hstep => hsmall.step hstep)
    small_nil hrun

/-- **In every run the array is small, and the next call does right just when the condition
    holds.** -/
theorem urlCache_right_iff {s : Cache} {clock : Int} {events : List Event} {e : Event}
    (hrun : run Cache.step { clock := clock } events = some s) :
    (Small s.urls ∧ DoesRight s e) ↔ Fine s e := by
  have hsmall := small_run hrun
  rw [doesRight_iff hsmall]
  exact ⟨fun hboth => hboth.2, fun hfine => ⟨hsmall, hfine⟩⟩

end

/-! ## One busy second -/

/-- Twenty URLs in the same second. -/
def busy : List Event :=
  (List.range 20).map fun i => .cacheURL 100 ⟨i, str "http://host/video", 100⟩

def full : Cache := (run Cache.step { clock := 100 } busy).getD { clock := 100 }

theorem run_busy : run Cache.step { clock := 100 } busy = some full := by
  have hsome : (run Cache.step { clock := 100 } busy).isSome = true := by decide
  obtain ⟨s, hs⟩ := Option.isSome_iff_exists.mp hsome
  unfold full
  rw [hs]
  rfl

/-- A second later there is room for another one. -/
theorem right_later : Small full.urls ∧
    DoesRight full (.cacheURL 101 ⟨20, str "http://host/video", 101⟩) :=
  (urlCache_right_iff run_busy).mpr (Or.inr (Or.inr ⟨⟨0, str "http://host/video", 100⟩,
    by decide, by decide⟩))

/-- In the same second it throws. -/
theorem not_right_busy : ¬ ∀ clock events s e, run Cache.step { clock := clock } events = some s →
    s.InTime e → Small s.urls ∧ DoesRight s e := by
  intro hall
  obtain ⟨-, urls', heq, -⟩ := hall 100 busy full
    (.cacheURL 100 ⟨20, str "http://host/video", 100⟩) run_busy (by decide)
  have hthrows : cacheURL 100 full.urls ⟨20, str "http://host/video", 100⟩ = none := by
    decide
  rw [hthrows] at heq
  cases heq

end CachedURL

end MediaTomb
