/-
  `Dictionary` (`dictionary.cc`) and `CdsResource` (`cds_resource.cc`).

  A dictionary is an array of key/value elements that `put` searches before it appends, so no two
  elements have the same key: it IS a table keyed by its first component.  Metadata, auxiliary data
  and the attributes of a resource are dictionaries, and they go to the database as URL-encoded
  text.
-/
import MediaTomb.Lib.Table
import MediaTomb.Common

namespace MediaTomb

/-! ## `dictionary.cc` -/

abbrev Dictionary : Type := Lib.Table (Prod.fst : Str × Str → Str)

namespace Dictionary

def setValue (key value : Str) (el : Str × Str) : Str × Str :=
  if el.1 = key then (el.1, value) else el

theorem setValue_fst (key value : Str) (el : Str × Str) : (setValue key value el).1 = el.1 := by
  unfold setValue
  split <;> rfl

/-- `put`: overwrite the element with this key, or append a new one. -/
def put (d : Dictionary) (key value : Str) : Dictionary :=
  match d.insert? (key, value) with
  | some d' => d'
  | none => d.update (setValue key value) (setValue_fst key value)

def get (d : Dictionary) (key : Str) : Option Str := (d.find? key).map Prod.snd

def remove (d : Dictionary) (key : Str) : Dictionary := d.delete fun el => el.1 = key

def size (d : Dictionary) : Nat := d.rows.length

/-- `encode`: `key=value` pairs joined by `&`, both sides URL-escaped. -/
def encode (d : Dictionary) : Str :=
  ['&'.toUInt8].intercalate
    (d.rows.map fun el => urlEscape el.1 ++ '='.toUInt8 :: urlEscape el.2)

/-- One `&`-separated part: stored when it has a `=`. -/
def decodePart (d : Dictionary) (part : Str) : Dictionary :=
  match cut '='.toUInt8 part with
  | (key, some value) => d.put (urlUnescape key) (urlUnescape value)
  | (_, none) => d

/-- The parts between `&` characters. -/
def ampParts : Nat → Str → List Str
  | 0, _ => []
  | fuel + 1, url =>
    match cut '&'.toUInt8 url with
    | (part, some rest) => part :: ampParts fuel rest
    | (part, none) => [part]

/-- `decode`, into an existing dictionary; nil decodes to nothing. -/
def decode (d : Dictionary) (url : Option Str) : Dictionary :=
  let s := url.getD []
  (ampParts (s.length + 1) s).foldl decodePart d

def isSubsetOf (d other : Dictionary) : Bool :=
  d.rows.all fun el => some el.2 = other.get el.1

def equals (d other : Dictionary) : Bool := isSubsetOf d other && isSubsetOf other d

/-! What `get` finds. -/

section

variable {d other : Dictionary} {key key' value : Str}

theorem get_eq_some : d.get key = some value ↔ (key, value) ∈ d.rows := by
  unfold get
  rw [Option.map_eq_some_iff]
  constructor
  · rintro ⟨el, hfind, rfl⟩
    obtain ⟨hel, rfl⟩ := Lib.Table.find?_eq_some.mp hfind
    exact hel
  · intro hel
    exact ⟨(key, value), Lib.Table.find?_eq_some.mpr ⟨hel, rfl⟩, rfl⟩

theorem mem_put {el : Str × Str} :
    el ∈ (d.put key value).rows ↔ el = (key, value) ∨ (el ∈ d.rows ∧ el.1 ≠ key) := by
  unfold put
  by_cases hkey : key ∈ d.rows.map Prod.fst
  · -- an element with this key is overwritten
    have hnone : d.insert? (key, value) = none := dif_pos hkey
    rw [hnone]
    simp only [Lib.Table.mem_update]
    obtain ⟨⟨_, old⟩, hold, rfl⟩ := List.mem_map.mp hkey
    constructor
    · rintro ⟨el₀, hel₀, rfl⟩
      unfold setValue
      split_ifs with heq
      · exact Or.inl (Prod.ext heq rfl)
      · exact Or.inr ⟨hel₀, heq⟩
    · rintro (rfl | ⟨hel, hne⟩)
      · exact ⟨_, hold, if_pos rfl⟩
      · exact ⟨el, hel, if_neg hne⟩
  · obtain ⟨d', hd', hrows⟩ := Lib.Table.insert?_of_fresh (t := d) (r := (key, value)) hkey
    rw [hd']
    simp only
    rw [hrows, List.mem_append, List.mem_singleton]
    constructor
    · rintro (hel | rfl)
      · exact Or.inr ⟨hel, fun heq => hkey (heq ▸ List.mem_map_of_mem hel)⟩
      · exact Or.inl rfl
    · rintro (rfl | ⟨hel, -⟩)
      · exact Or.inr rfl
      · exact Or.inl hel

theorem get_put : (d.put key value).get key' = if key' = key then some value else d.get key' := by
  refine Option.ext fun v => ?_
  rw [get_eq_some, mem_put]
  split_ifs with heq
  · subst heq
    simp [Prod.ext_iff, eq_comm]
  · rw [get_eq_some]
    simp [Prod.ext_iff, heq]

theorem get_remove : (d.remove key).get key' = if key' = key then none else d.get key' := by
  refine Option.ext fun v => ?_
  rw [get_eq_some, remove, Lib.Table.mem_delete]
  split_ifs with heq
  · simp [heq]
  · rw [get_eq_some]
    simp [heq]

/-- **Two dictionaries are equal when `get` finds the same.** -/
theorem equals_iff : d.equals other = true ↔ ∀ key, d.get key = other.get key := by
  have hsubset : ∀ d other : Dictionary, d.isSubsetOf other = true ↔
      ∀ key value, d.get key = some value → other.get key = some value := by
    intro d other
    unfold isSubsetOf
    rw [List.all_eq_true]
    constructor
    · intro h key value hget
      exact (of_decide_eq_true (h (key, value) (get_eq_some.mp hget))).symm
    · rintro h ⟨key, value⟩ hel
      exact decide_eq_true (h key value (get_eq_some.mpr hel)).symm
  unfold equals
  rw [Bool.and_eq_true, hsubset, hsubset]
  constructor
  · rintro ⟨hle, hge⟩ key
    exact Option.ext fun value => ⟨hle key value, hge key value⟩
  · intro h
    exact ⟨fun key value hget => h key ▸ hget, fun key value hget => (h key).symm ▸ hget⟩

end

end Dictionary

/-! ## `cds_resource.cc` -/

def resourcePartSep : UInt8 := '~'.toUInt8

structure CdsResource where
  handlerType : Int
  attributes : Dictionary
  parameters : Dictionary
  options : Dictionary

namespace CdsResource

def equals (r other : CdsResource) : Bool :=
  r.handlerType = other.handlerType && r.attributes.equals other.attributes &&
    r.parameters.equals other.parameters && r.options.equals other.options

def encode (r : CdsResource) : Str :=
  [resourcePartSep].intercalate
    [fromInt r.handlerType, r.attributes.encode, r.parameters.encode, r.options.encode]

/-- `decode`: two to four parts, the missing ones empty. -/
def decode (serial : Str) : Except Exception CdsResource :=
  match splitString (some serial) resourcePartSep true with
  | [h, a] => .ok (ofParts h a none none)
  | [h, a, p] => .ok (ofParts h a (some p) none)
  | [h, a, p, o] => .ok (ofParts h a (some p) (some o))
  | _ => .error (.exception (str "CdsResource::decode: Could not parse resources"))
where
  ofParts (h a : Str) (p o : Option Str) : CdsResource :=
    { handlerType := toInt (some h)
      attributes := Dictionary.decode .empty (some a)
      parameters := Dictionary.decode .empty p
      options := Dictionary.decode .empty o }

end CdsResource

end MediaTomb
