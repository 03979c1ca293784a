import Mathlib.Data.List.Nodup

/-!
# Shapes of serialized records

Records that one side writes and another reads, each by the shape it declares. A
writer leaves an absent field out. A reader refuses a key that it does not know or
that comes twice; it may require a field, or take its absence for an absent value,
or read it by a function of its own, for which the field has to be there. Numbers
with a fraction and points in time are opaque.

`Reads` compares two shapes. Where it holds, what is written is read back exactly
when it `Fits`: the two ways not to fit are a negative number that is read as an
unsigned one, and the absence of a field with a reader of its own. In between, a
store may put the keys of the objects in an order of its own.
-/

namespace Rutilus.Lib.Serde

/-! ## Texts and values -/

/-- An object has its keys in the order of writing. -/
inductive Json (φ : Type) where
  | null
  | bool (value : Bool)
  | integer (value : Int)
  | float (value : φ)
  | string (value : String)
  | array (items : List (Json φ))
  | object (fields : List (String × Json φ))

/-- A record has a value for the fields that are present. -/
inductive Value (φ δ : Type) where
  | text (value : String)
  | boolean (value : Bool)
  | integer (value : Int)
  | float (value : φ)
  | date (value : δ)
  | list (items : List (Value φ δ))
  | record (fields : String → Option (Value φ δ))

abbrev Fields (φ δ : Type) : Type := String → Option (Value φ δ)

/-- What is opaque: whole numbers as fractions, points in time as texts, and the
order in which the keys of an object are stored. -/
structure Opaque (φ δ : Type) where
  ofInt : Int → φ
  print : δ → String
  parse : String → Option δ
  parse_print : ∀ d, parse (print d) = some d
  sort : List (String × Json φ) → List (String × Json φ)
  sort_perm : ∀ fields, (sort fields).Perm fields

/-! ## Shapes -/

mutual

inductive WriteType where
  | text
  | boolean
  | int64
  | size
  | float
  | date
  | constant (value : String)
  | list (item : WriteType)
  | record (fields : WriteFields)

/-- A field is always there, or is left out when it is absent. -/
inductive WriteFields where
  | nil
  | cons (name : String) (always : Bool) (type : WriteType) (rest : WriteFields)

end

inductive Presence where
  | required
  | optional
  | custom
  deriving DecidableEq, Repr

mutual

inductive ReadType where
  | text
  | boolean
  | int64
  | uint64
  | float
  | date
  | oneOf (values : List String)
  | list (item : ReadType)
  | record (fields : ReadFields)

inductive ReadFields where
  | nil
  | cons (name : String) (presence : Presence) (type : ReadType)
      (rest : ReadFields)

end

def WriteFields.ofList : List (String × Bool × WriteType) → WriteFields
  | [] => .nil
  | (name, always, type) :: rest => .cons name always type (ofList rest)

def ReadFields.ofList : List (String × Presence × ReadType) → ReadFields
  | [] => .nil
  | (name, presence, type) :: rest => .cons name presence type (ofList rest)

def WriteFields.names : WriteFields → List String
  | .nil => []
  | .cons name _ _ rest => name :: rest.names

def ReadFields.names : ReadFields → List String
  | .nil => []
  | .cons name _ _ rest => name :: rest.names

def WriteFields.find (name : String) : WriteFields → Option (Bool × WriteType)
  | .nil => none
  | .cons name' always type rest =>
    if name = name' then some (always, type) else rest.find name

/-! ## Writing -/

section

variable {φ δ : Type} (o : Opaque φ δ)

mutual

def encode : WriteType → Value φ δ → Json φ
  | .text, .text s => .string s
  | .boolean, .boolean b => .bool b
  | .int64, .integer n => .integer n
  | .size, .integer n => .integer n
  | .float, .float x => .float x
  | .date, .date d => .string (o.print d)
  | .constant _, .text s => .string s
  | .list item, .list xs => .array (xs.map (encode item))
  | .record fields, .record f => .object (encodeFields fields f)
  | _, _ => .null

def encodeFields : WriteFields → Fields φ δ → List (String × Json φ)
  | .nil, _ => []
  | .cons name _ type rest, f => match f name with
    | none => encodeFields rest f
    | some v => (name, encode type v) :: encodeFields rest f

end

/-! ## Storing -/

mutual

def reorder : Json φ → Json φ
  | .array items => .array (reorderItems items)
  | .object fields => .object (o.sort (reorderFields fields))
  | .null => .null
  | .bool value => .bool value
  | .integer value => .integer value
  | .float value => .float value
  | .string value => .string value

def reorderItems : List (Json φ) → List (Json φ)
  | [] => []
  | item :: rest => reorder item :: reorderItems rest

def reorderFields : List (String × Json φ) → List (String × Json φ)
  | [] => []
  | (name, value) :: rest => (name, reorder value) :: reorderFields rest

end

/-! ## Reading -/

def minInt64 : Int := -9223372036854775808

def maxInt64 : Int := 9223372036854775807

def maxUint64 : Int := 18446744073709551615

/-- A field as it was found; `null` is the absence of an optional one. -/
def decodeField (presence : Presence) (read : Json φ → Option (Value φ δ)) :
    Option (Json φ) → Option (Option (Value φ δ))
  | none => if presence = .optional then some none else none
  | some .null =>
    if presence = .required then (read .null).map some else some none
  | some found => (read found).map some

mutual

def decode : ReadType → Json φ → Option (Value φ δ)
  | .text, .string s => some (.text s)
  | .boolean, .bool b => some (.boolean b)
  | .int64, .integer n =>
    if minInt64 ≤ n ∧ n ≤ maxInt64 then some (.integer n) else none
  | .uint64, .integer n =>
    if 0 ≤ n ∧ n ≤ maxUint64 then some (.integer n) else none
  | .float, .float x => some (.float x)
  | .float, .integer n => some (.float (o.ofInt n))
  | .date, .string s => (o.parse s).map .date
  | .oneOf values, .string s => if s ∈ values then some (.text s) else none
  | .list item, .array xs => (xs.mapM (decode item)).map .list
  | .record fields, .object kvs =>
    if (kvs.map Prod.fst).Nodup ∧ ∀ k ∈ kvs.map Prod.fst, k ∈ fields.names then
      (decodeFields fields kvs).map .record
    else none
  | _, _ => none

def decodeFields :
    ReadFields → List (String × Json φ) → Option (Fields φ δ)
  | .nil, _ => some fun _ => none
  | .cons name presence type rest, kvs =>
    match decodeField presence (decode type) (kvs.lookup name) with
    | none => none
    | some found => (decodeFields rest kvs).map fun others key =>
        if key = name then found else others key

end

/-- One field of an object, whatever the others are. -/
def decodeKey (name : String) (type : ReadType) : Json φ → Option (Value φ δ)
  | .object kvs =>
    if (kvs.map Prod.fst).count name = 1 then
      (kvs.lookup name).bind (decode o type)
    else none
  | _ => none

end

/-! ## Types, and what fits -/

section

variable {φ δ : Type}

mutual

def HasType : WriteType → Value φ δ → Prop
  | .text, .text _ => True
  | .boolean, .boolean _ => True
  | .int64, .integer n => minInt64 ≤ n ∧ n ≤ maxInt64
  | .size, .integer n => 0 ≤ n ∧ n ≤ maxUint64
  | .float, .float _ => True
  | .date, .date _ => True
  | .constant value, .text s => s = value
  | .list item, .list xs => ∀ x ∈ xs, HasType item x
  | .record fields, .record f =>
    HasFields fields f ∧ ∀ name, fields.find name = none → f name = none
  | _, _ => False

def HasFields : WriteFields → Fields φ δ → Prop
  | .nil, _ => True
  | .cons name always type rest, f =>
    (match f name with
      | none => always = false
      | some v => HasType type v) ∧ HasFields rest f

end

mutual

def Fits : ReadType → Value φ δ → Prop
  | .uint64, .integer n => 0 ≤ n
  | .list item, .list xs => ∀ x ∈ xs, Fits item x
  | .record fields, .record f => FitsAll fields f
  | _, _ => True

def FitsAll : ReadFields → Fields φ δ → Prop
  | .nil, _ => True
  | .cons name presence type rest, f =>
    (match f name with
      | none => presence ≠ .custom
      | some v => Fits type v) ∧ FitsAll rest f

end

/-- A field that may be absent. -/
def FieldFits (presence : Presence) (type : ReadType) :
    Option (Value φ δ) → Prop
  | none => presence ≠ .custom
  | some v => Fits type v

theorem fitsAll_cons {name : String} {presence : Presence} {type : ReadType}
    {rest : ReadFields} {f : Fields φ δ} :
    FitsAll (.cons name presence type rest) f ↔
      FieldFits presence type (f name) ∧ FitsAll rest f :=
  Iff.rfl

end

mutual

/-- What is written as the one type can be read as the other, if it fits. -/
def Reads : WriteType → ReadType → Bool
  | .text, .text => true
  | .boolean, .boolean => true
  | .int64, .int64 => true
  | .int64, .uint64 => true
  | .size, .uint64 => true
  | .float, .float => true
  | .date, .date => true
  | .constant value, .oneOf values => decide (value ∈ values)
  | .list item, .list item' => Reads item item'
  | .record fields, .record fields' =>
    decide fields.names.Nodup &&
      fields.names.all (fun name => decide (name ∈ fields'.names)) &&
      ReadsAll fields fields'
  | _, _ => false

def ReadsAll (fields : WriteFields) : ReadFields → Bool
  | .nil => true
  | .cons name presence type rest =>
    (match fields.find name with
      | none => decide (presence = .optional)
      | some (always, type') =>
        Reads type' type && (always || decide (presence ≠ .required))) &&
      ReadsAll fields rest

end

mutual

/-- What is written as the one type fits the other, whatever it is. -/
def AlwaysFits : WriteType → ReadType → Bool
  | .int64, .uint64 => false
  | .list item, .list item' => AlwaysFits item item'
  | .record fields, .record fields' => AllAlwaysFit fields fields'
  | _, _ => true

def AllAlwaysFit (fields : WriteFields) : ReadFields → Bool
  | .nil => true
  | .cons name presence type rest =>
    (match fields.find name with
      | none => decide (presence ≠ .custom)
      | some (always, type') =>
        AlwaysFits type' type && (always || decide (presence ≠ .custom))) &&
      AllAlwaysFit fields rest

end

/-- The fields that may be written so that they do not fit. -/
def ReadFields.risky (fields : WriteFields) :
    ReadFields → List (String × Presence × ReadType)
  | .nil => []
  | .cons name presence type rest =>
    if AllAlwaysFit fields (.cons name presence type .nil) then
      rest.risky fields
    else (name, presence, type) :: rest.risky fields

/-! ## What was written -/

section

variable {φ δ : Type} {o : Opaque φ δ}

theorem encode_ne_null {w : WriteType} {v : Value φ δ} (h : HasType w v) :
    encode o w v ≠ .null := by
  cases w <;> cases v <;> first | exact h.elim | exact nofun

theorem hasFields_find {fs : WriteFields} {f : Fields φ δ} (h : HasFields fs f)
    {name : String} {always : Bool} {type : WriteType}
    (hfind : fs.find name = some (always, type)) :
    match f name with
    | none => always = false
    | some v => HasType type v := by
  match fs with
  | .nil => cases hfind
  | .cons name' always' type' rest =>
      unfold WriteFields.find at hfind
      split at hfind
      · next heq =>
          cases hfind
          subst heq
          exact h.1
      · exact hasFields_find h.2 hfind

theorem find_none {fs : WriteFields} {name : String} (h : name ∉ fs.names) :
    fs.find name = none := by
  match fs with
  | .nil => rfl
  | .cons name' always type rest =>
      unfold WriteFields.names at h
      rw [List.mem_cons, not_or] at h
      unfold WriteFields.find
      rw [if_neg h.1]
      exact find_none h.2

/-- A key is found if the field is written and present. -/
theorem lookup_encodeFields (fs : WriteFields) (f : Fields φ δ) (name : String) :
    (encodeFields o fs f).lookup name = match fs.find name with
      | none => none
      | some (_, type) => (f name).map (encode o type) := by
  match fs with
  | .nil => rfl
  | .cons name' always type rest =>
      have ih := lookup_encodeFields rest f name
      unfold encodeFields WriteFields.find
      by_cases heq : name = name'
      · subst heq
        rw [if_pos rfl]
        dsimp only
        cases hf : f name with
        | some v =>
            simp [List.lookup_cons]
        | none =>
            dsimp only
            rw [ih, hf]
            split <;> rfl
      · rw [if_neg heq, ← ih]
        cases hf : f name' with
        | none => rfl
        | some v =>
            dsimp only
            rw [List.lookup_cons, beq_false_of_ne heq]

theorem keys_encodeFields (fs : WriteFields) (f : Fields φ δ) :
    ((encodeFields o fs f).map Prod.fst).Sublist fs.names := by
  match fs with
  | .nil => exact List.Sublist.refl _
  | .cons name always type rest =>
      have ih := keys_encodeFields rest f
      unfold encodeFields WriteFields.names
      split
      · exact ih.cons _
      · exact ih.cons_cons _

/-! ## The order of the keys -/

theorem decodeField_some {presence : Presence}
    {read : Json φ → Option (Value φ δ)} {j : Json φ} (h : j ≠ .null) :
    decodeField presence read (some j) = (read j).map some := by
  cases j <;> first | exact absurd rfl h | rfl

/-- A key that comes at most once is found in any order. -/
theorem lookup_perm {α : Type} {kvs kvs' : List (String × α)} (h : kvs.Perm kvs')
    {name : String} (hcount : (kvs.map Prod.fst).count name ≤ 1) :
    kvs.lookup name = kvs'.lookup name := by
  induction h with
  | nil => rfl
  | cons kv _ ih =>
      rw [List.map_cons, List.count_cons] at hcount
      rw [List.lookup_cons, List.lookup_cons, ih (by omega)]
  | swap kv kv' rest =>
      rw [List.lookup_cons, List.lookup_cons, List.lookup_cons, List.lookup_cons]
      by_cases hname : name = kv.1
      · have hne : name ≠ kv'.1 := by
          intro hname'
          rw [List.map_cons, List.map_cons, ← hname, ← hname',
            List.count_cons_self, List.count_cons_self] at hcount
          omega
        rw [beq_false_of_ne hne]
      · rw [beq_false_of_ne hname]
  | trans hone _ ih ih' =>
      rw [ih hcount, ih' (by rwa [← (hone.map Prod.fst).count_eq name])]

theorem reorder_null_iff {j : Json φ} : reorder o j = .null ↔ j = .null := by
  cases j <;> simp [reorder]

theorem reorderItems_eq (items : List (Json φ)) :
    reorderItems o items = items.map (reorder o) := by
  induction items with
  | nil => rfl
  | cons item rest ih => rw [reorderItems, ih, List.map_cons]

theorem keys_reorderFields (fields : List (String × Json φ)) :
    (reorderFields o fields).map Prod.fst = fields.map Prod.fst := by
  induction fields with
  | nil => rfl
  | cons field rest ih =>
      rw [reorderFields, List.map_cons, List.map_cons, ih]

theorem lookup_reorderFields (fields : List (String × Json φ)) (name : String) :
    (reorderFields o fields).lookup name =
      (fields.lookup name).map (reorder o) := by
  induction fields with
  | nil => rfl
  | cons field rest ih =>
      rw [reorderFields, List.lookup_cons, List.lookup_cons, ih]
      split <;> rfl

/-- The keys that are stored are the keys that were written. -/
theorem keys_sort (fields : List (String × Json φ)) :
    ((o.sort (reorderFields o fields)).map Prod.fst).Perm
      (fields.map Prod.fst) := by
  have h := (o.sort_perm (reorderFields o fields)).map Prod.fst
  rwa [keys_reorderFields] at h

theorem lookup_sort {fields : List (String × Json φ)} {name : String}
    (h : (fields.map Prod.fst).count name ≤ 1) :
    (o.sort (reorderFields o fields)).lookup name =
      (fields.lookup name).map (reorder o) := by
  rw [lookup_perm (o.sort_perm _) (by rwa [(keys_sort fields).count_eq name]),
    lookup_reorderFields]

theorem decodeField_reorder {presence : Presence}
    {read : Json φ → Option (Value φ δ)} (h : ∀ j, read (reorder o j) = read j)
    (found : Option (Json φ)) :
    decodeField presence read (found.map (reorder o)) =
      decodeField presence read found := by
  cases found with
  | none => rfl
  | some j =>
      by_cases hnull : j = .null
      · subst hnull
        rfl
      · have hnull' : reorder o j ≠ .null := fun h => hnull (reorder_null_iff.mp h)
        rw [Option.map_some, decodeField_some hnull', decodeField_some hnull, h]

mutual

/-- The order of the keys does not matter to a reader. -/
theorem decode_reorder (r : ReadType) (j : Json φ) :
    decode (δ := δ) o r (reorder o j) = decode o r j := by
  match r, j with
  | .list item, .array items =>
      have h : (reorderItems o items).mapM (decode (δ := δ) o item) =
          items.mapM (decode o item) := by
        rw [reorderItems_eq, List.mapM_map]
        exact congrArg (List.mapM · items) (funext fun j => decode_reorder item j)
      show ((reorderItems o items).mapM (decode o item)).map Value.list = _
      rw [h]
      rfl
  | .record gs, .object fields =>
      have hkeys := keys_sort (o := o) fields
      have hok : (((o.sort (reorderFields o fields)).map Prod.fst).Nodup ∧
            ∀ k ∈ (o.sort (reorderFields o fields)).map Prod.fst, k ∈ gs.names) ↔
          ((fields.map Prod.fst).Nodup ∧
            ∀ k ∈ fields.map Prod.fst, k ∈ gs.names) :=
        and_congr hkeys.nodup_iff
          ⟨fun h k hk => h k (hkeys.mem_iff.mpr hk),
            fun h k hk => h k (hkeys.mem_iff.mp hk)⟩
      show (if _ then (decodeFields o gs (o.sort (reorderFields o fields))).map
        Value.record else none) = if _ then _ else _
      by_cases h : (fields.map Prod.fst).Nodup ∧
          ∀ k ∈ fields.map Prod.fst, k ∈ gs.names
      · rw [if_pos (hok.mpr h), if_pos h, decodeFields_reorder gs h.1]
      · rw [if_neg fun h' => h (hok.mp h'), if_neg h]
  | .text, .array _ | .boolean, .array _ | .int64, .array _ | .uint64, .array _
  | .float, .array _ | .date, .array _ | .oneOf _, .array _ | .record _, .array _
  | .text, .object _ | .boolean, .object _ | .int64, .object _
  | .uint64, .object _ | .float, .object _ | .date, .object _
  | .oneOf _, .object _ | .list _, .object _ => rfl
  | _, .null | _, .bool _ | _, .integer _ | _, .float _ | _, .string _ => rfl

theorem decodeFields_reorder (gs : ReadFields) {fields : List (String × Json φ)}
    (h : (fields.map Prod.fst).Nodup) :
    decodeFields (δ := δ) o gs (o.sort (reorderFields o fields)) =
      decodeFields o gs fields := by
  match gs with
  | .nil => rfl
  | .cons name presence type rest =>
      unfold decodeFields
      rw [lookup_sort (List.nodup_iff_count_le_one.mp h name),
        decodeField_reorder (fun j => decode_reorder type j),
        decodeFields_reorder rest h]

end

theorem decodeKey_reorder (name : String) (type : ReadType) (j : Json φ) :
    decodeKey (δ := δ) o name type (reorder o j) = decodeKey o name type j := by
  cases j with
  | object fields =>
      have hcount : ((o.sort (reorderFields o fields)).map Prod.fst).count name =
          (fields.map Prod.fst).count name := (keys_sort fields).count_eq name
      show (if _ then _ else none) = if _ then _ else none
      rw [hcount]
      by_cases h : (fields.map Prod.fst).count name = 1
      · rw [if_pos h, if_pos h, lookup_sort (Nat.le_of_eq h), Option.bind_map]
        exact congrArg _ (funext fun j => decode_reorder type j)
      · rw [if_neg h, if_neg h]
  | _ => rfl

/-! ## Reading what was written -/

/-- The fields that a reader knows. -/
def restrict (gs : ReadFields) (f : Fields φ δ) : Fields φ δ :=
  fun name => if name ∈ gs.names then f name else none

/-- A field read before the others. -/
theorem restrict_cons (name : String) (presence : Presence) (type : ReadType)
    (rest : ReadFields) (f : Fields φ δ) :
    (fun key => if key = name then f name else restrict rest f key) =
      restrict (.cons name presence type rest) f := by
  funext key
  show _ = if key ∈ name :: rest.names then f key else none
  by_cases h : key = name
  · subst h
    rw [if_pos rfl, if_pos List.mem_cons_self]
  · rw [if_neg h]
    simp [restrict, h]

/-- What is written is read if it fits, and refused if it does not. -/
def ReadBack (o : Opaque φ δ) (w : WriteType) (r : ReadType) (v : Value φ δ) :
    Prop :=
  (Fits r v → decode o r (encode o w v) = some v) ∧
    (¬ Fits r v → decode o r (encode o w v) = none)

/-- All of a list is read, or nothing. -/
theorem mapM_encode {r : ReadType} {w : WriteType} {xs : List (Value φ δ)}
    (h : ∀ x ∈ xs, ReadBack o w r x) :
    ((∀ x ∈ xs, Fits r x) →
      (xs.map (encode o w)).mapM (decode o r) = some xs) ∧
    (¬ (∀ x ∈ xs, Fits r x) →
      (xs.map (encode o w)).mapM (decode o r) = none) := by
  induction xs with
  | nil => exact ⟨fun _ => rfl, fun hno => absurd (fun _ hx => by cases hx) hno⟩
  | cons x xs ih =>
      obtain ⟨hfits, hno⟩ := h x List.mem_cons_self
      obtain ⟨hfits', hno'⟩ := ih fun y hy => h y (List.mem_cons_of_mem _ hy)
      rw [List.map_cons, List.mapM_cons, List.forall_mem_cons]
      by_cases hx : Fits r x
      · rw [hfits hx]
        constructor
        · rintro ⟨-, hxs⟩
          rw [hfits' hxs]
          rfl
        · intro hxs
          rw [hno' fun hxs' => hxs ⟨hx, hxs'⟩]
          rfl
      · rw [hno hx]
        exact ⟨fun hxs => absurd hxs.1 hx, fun _ => rfl⟩

/-- A field, if it is there, and if it may be absent. -/
theorem decodeField_encode {fs : WriteFields} {f : Fields φ δ}
    (hf : HasFields fs f) (hout : ∀ name, fs.find name = none → f name = none)
    {name : String} {presence : Presence} {type : ReadType}
    (h : ReadsAll fs (.cons name presence type .nil) = true)
    (ih : ∀ {w : WriteType} {v : Value φ δ}, Reads w type = true → HasType w v →
      ReadBack o w type v) :
    (FieldFits presence type (f name) →
      decodeField presence (decode o type)
        ((encodeFields o fs f).lookup name) = some (f name)) ∧
    (¬ FieldFits presence type (f name) →
      decodeField presence (decode o type)
        ((encodeFields o fs f).lookup name) = none) := by
  unfold ReadsAll ReadsAll at h
  rw [Bool.and_true] at h
  rw [lookup_encodeFields]
  cases hfind : fs.find name with
  | none =>
      rw [hfind] at h
      have hoptional : presence = .optional := of_decide_eq_true h
      rw [hout name hfind, hoptional]
      exact ⟨fun _ => rfl, fun hno => absurd nofun hno⟩
  | some found =>
      obtain ⟨always, type'⟩ := found
      rw [hfind] at h
      dsimp only at h ⊢
      rw [Bool.and_eq_true, Bool.or_eq_true] at h
      have hvalue := hasFields_find hf hfind
      cases hv : f name with
      | none =>
          rw [hv] at hvalue
          have hnot : presence ≠ .required := by
            refine of_decide_eq_true (h.2.resolve_left ?_)
            rw [show always = false from hvalue]
            exact Bool.false_ne_true
          cases presence with
          | required => exact absurd rfl hnot
          | optional => exact ⟨fun _ => rfl, fun hno => absurd nofun hno⟩
          | custom => exact ⟨fun hyes => absurd rfl hyes, fun _ => rfl⟩
      | some v =>
          rw [hv] at hvalue
          obtain ⟨hread, hrefused⟩ := ih h.1 hvalue
          dsimp only [Option.map_some]
          rw [decodeField_some (encode_ne_null hvalue)]
          exact ⟨fun hyes => by rw [hread hyes]; rfl,
            fun hyes => by rw [hrefused hyes]; rfl⟩

mutual

theorem decode_encode (r : ReadType) {w : WriteType} {v : Value φ δ}
    (h : Reads w r = true) (hv : HasType w v) : ReadBack o w r v := by
  match r, w, h with
  | .text, .text, _ =>
      cases v <;> first | exact hv.elim | skip
      exact ⟨fun _ => rfl, fun hno => absurd trivial hno⟩
  | .boolean, .boolean, _ =>
      cases v <;> first | exact hv.elim | skip
      exact ⟨fun _ => rfl, fun hno => absurd trivial hno⟩
  | .int64, .int64, _ =>
      cases v <;> first | exact hv.elim | skip
      exact ⟨fun _ => if_pos hv, fun hno => absurd trivial hno⟩
  | .uint64, .int64, _ =>
      cases v <;> first | exact hv.elim | skip
      next n =>
        have hle : n ≤ maxUint64 := Int.le_trans hv.2 (by decide)
        exact ⟨fun hn => if_pos ⟨hn, hle⟩,
          fun hn => if_neg fun hboth => hn hboth.1⟩
  | .uint64, .size, _ =>
      cases v <;> first | exact hv.elim | skip
      exact ⟨fun _ => if_pos hv, fun hno => absurd hv.1 hno⟩
  | .float, .float, _ =>
      cases v <;> first | exact hv.elim | skip
      exact ⟨fun _ => rfl, fun hno => absurd trivial hno⟩
  | .date, .date, _ =>
      cases v <;> first | exact hv.elim | skip
      next d =>
        refine ⟨fun _ => ?_, fun hno => absurd trivial hno⟩
        show (o.parse (o.print d)).map Value.date = _
        rw [o.parse_print]
        rfl
  | .oneOf values, .constant value, h =>
      cases v <;> first | exact hv.elim | skip
      next s =>
        have hin : s ∈ values := by
          rw [show s = value from hv]
          exact of_decide_eq_true h
        exact ⟨fun _ => if_pos hin, fun hno => absurd trivial hno⟩
  | .list item, .list item', h =>
      cases v <;> first | exact hv.elim | skip
      next xs =>
        obtain ⟨hfits, hno⟩ := mapM_encode (o := o) (w := item')
          fun x hx => decode_encode item h (hv x hx)
        constructor
        · intro hxs
          show ((xs.map (encode o item')).mapM (decode o item)).map Value.list = _
          rw [hfits hxs]
          rfl
        · intro hxs
          show ((xs.map (encode o item')).mapM (decode o item)).map Value.list = _
          rw [hno hxs]
          rfl
  | .record gs, .record fs, h =>
      cases v <;> first | exact hv.elim | skip
      next f =>
        unfold Reads at h
        rw [Bool.and_eq_true, Bool.and_eq_true] at h
        obtain ⟨⟨hnodup, hknown⟩, hall⟩ := h
        have hknown' : ∀ name ∈ fs.names, name ∈ gs.names := fun name hname =>
          of_decide_eq_true (List.all_eq_true.mp hknown name hname)
        have hkeys := keys_encodeFields (o := o) fs f
        have hok : ((encodeFields o fs f).map Prod.fst).Nodup ∧
            ∀ k ∈ (encodeFields o fs f).map Prod.fst, k ∈ gs.names :=
          ⟨hkeys.nodup (of_decide_eq_true hnodup),
            fun k hk => hknown' k (hkeys.subset hk)⟩
        have hrun : decode o (.record gs) (encode o (.record fs) (.record f)) =
            (decodeFields o gs (encodeFields o fs f)).map Value.record := by
          show (if _ then _ else _) = _
          exact if_pos hok
        obtain ⟨hfits, hno⟩ := decodeFields_encode gs hall hv.1 hv.2
        unfold ReadBack
        rw [hrun]
        constructor
        · intro hgs
          rw [hfits hgs]
          have hsame : restrict gs f = f := by
            funext name
            unfold restrict
            split
            · rfl
            · next hout =>
                exact (hv.2 name
                  (find_none fun hin => hout (hknown' name hin))).symm
          rw [hsame]
          rfl
        · intro hgs
          rw [hno hgs]
          rfl

theorem decodeFields_encode (gs : ReadFields) {fs : WriteFields} {f : Fields φ δ}
    (h : ReadsAll fs gs = true) (hf : HasFields fs f)
    (hout : ∀ name, fs.find name = none → f name = none) :
    (FitsAll gs f → decodeFields o gs (encodeFields o fs f) =
        some (restrict gs f)) ∧
      (¬ FitsAll gs f → decodeFields o gs (encodeFields o fs f) = none) := by
  match gs with
  | .nil => exact ⟨fun _ => rfl, fun hno => absurd trivial hno⟩
  | .cons name presence type rest =>
      unfold ReadsAll at h
      rw [Bool.and_eq_true] at h
      obtain ⟨hone, hrest⟩ := h
      obtain ⟨hfits, hno⟩ := decodeFields_encode rest hrest hf hout
      obtain ⟨hfield, hmissing⟩ := decodeField_encode (o := o)
        hf hout
        (by unfold ReadsAll ReadsAll; rw [Bool.and_true]; exact hone)
        fun hread hv => decode_encode type hread hv
      rw [fitsAll_cons]
      unfold decodeFields
      constructor
      · rintro ⟨hone, hothers⟩
        rw [hfield hone, hfits hothers, ← restrict_cons]
        rfl
      · intro hnot
        by_cases hone : FieldFits presence type (f name)
        · rw [hfield hone, hno fun hothers => hnot ⟨hone, hothers⟩]
          rfl
        · rw [hmissing hone]

end

/-- The constant of a record, read before the record. -/
theorem decodeKey_encode {fs : WriteFields} {f : Fields φ δ}
    (hf : HasFields fs f) (hnodup : fs.names.Nodup) {name value : String}
    (hfind : fs.find name = some (true, .constant value)) {values : List String}
    (hin : value ∈ values) :
    decodeKey o name (.oneOf values) (encode o (.record fs) (.record f)) =
      some (.text value) := by
  have hlookup := lookup_encodeFields (o := o) fs f name
  have hvalue := hasFields_find hf hfind
  rw [hfind] at hlookup
  cases hname : f name with
  | none =>
      rw [hname] at hvalue
      cases hvalue
  | some v =>
      rw [hname] at hvalue hlookup
      cases v <;> first | exact hvalue.elim | skip
      next s =>
        cases show s = value from hvalue
        have hmem : name ∈ (encodeFields o fs f).map Prod.fst := by
          obtain ⟨before, after, hsplit, -⟩ := List.lookup_eq_some_iff.mp hlookup
          rw [hsplit]
          simp
        have hcount := List.count_eq_one_of_mem
          ((keys_encodeFields (o := o) fs f).nodup hnodup) hmem
        show (if _ then ((encodeFields o fs f).lookup name).bind _ else none) = _
        rw [if_pos hcount, hlookup]
        exact if_pos hin

/-! ## What fits -/

mutual

theorem fits_of_always (r : ReadType) {w : WriteType} {v : Value φ δ}
    (h : AlwaysFits w r = true) (hv : HasType w v) : Fits r v := by
  match r, v with
  | .uint64, .integer n =>
      cases w <;> first | exact hv.elim | skip
      · cases h
      · exact hv.1
  | .list item, .list xs =>
      cases w <;> first | exact hv.elim | skip
      exact fun x hx => fits_of_always item h (hv x hx)
  | .record gs, .record f =>
      cases w <;> first | exact hv.elim | skip
      exact fitsAll_of_always gs h hv.1 hv.2
  | .uint64, .text _ | .uint64, .boolean _ | .uint64, .float _
  | .uint64, .date _ | .uint64, .list _ | .uint64, .record _ => trivial
  | .list _, .text _ | .list _, .boolean _ | .list _, .integer _
  | .list _, .float _ | .list _, .date _ | .list _, .record _ => trivial
  | .record _, .text _ | .record _, .boolean _ | .record _, .integer _
  | .record _, .float _ | .record _, .date _ | .record _, .list _ => trivial
  | .text, _ | .boolean, _ | .int64, _ | .float, _ | .date, _ | .oneOf _, _ =>
      trivial

theorem fitsAll_of_always (gs : ReadFields) {fs : WriteFields} {f : Fields φ δ}
    (h : AllAlwaysFit fs gs = true) (hf : HasFields fs f)
    (hout : ∀ name, fs.find name = none → f name = none) : FitsAll gs f := by
  match gs with
  | .nil => trivial
  | .cons name presence type rest =>
      unfold AllAlwaysFit at h
      rw [Bool.and_eq_true] at h
      refine ⟨?_, fitsAll_of_always rest h.2 hf hout⟩
      cases hfind : fs.find name with
      | none => 
          rw [hfind] at h
          rw [hout name hfind]
          exact of_decide_eq_true h.1
      | some found =>
          obtain ⟨always, type'⟩ := found
          rw [hfind] at h
          have hvalue := hasFields_find hf hfind
          dsimp only at h
          rw [Bool.and_eq_true, Bool.or_eq_true] at h
          cases hv : f name with
          | none =>
              rw [hv] at hvalue
              refine of_decide_eq_true (h.1.2.resolve_left ?_)
              rw [show always = false from hvalue]
              exact Bool.false_ne_true
          | some v =>
              rw [hv] at hvalue
              exact fits_of_always type h.1.1 hvalue

end

/-- Only the risky fields need to be looked at. -/
theorem fitsAll_iff_risky (gs : ReadFields) {fs : WriteFields} {f : Fields φ δ}
    (hf : HasFields fs f)
    (hout : ∀ name, fs.find name = none → f name = none) :
    FitsAll gs f ↔
      ∀ g ∈ gs.risky fs, FieldFits g.2.1 g.2.2 (f g.1) := by
  match gs with
  | .nil => exact ⟨fun _ _ hg => absurd hg List.not_mem_nil, fun _ => trivial⟩
  | .cons name presence type rest =>
      have ih := fitsAll_iff_risky rest hf hout
      rw [fitsAll_cons]
      unfold ReadFields.risky
      split
      · next halways =>
          have hone := fitsAll_of_always _ halways hf hout
          rw [ih]
          exact and_iff_right (fitsAll_cons.mp hone).1
      · rw [List.forall_mem_cons, ih]

end

end Rutilus.Lib.Serde
