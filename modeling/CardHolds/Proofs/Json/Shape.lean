import CardHolds.Json.Form
import CardHolds.Proofs.Text.Rfc3339
import Mathlib.Data.List.Forall2

/-!
# The shapes of JSON documents

A `Shape` says which documents stand for the values of a type, and what is written for a document once
it has been read.  Shapes are put together from those of texts, numbers, times and words by `Shape.list`
and `Shape.record`.  They know nothing of the readers; a time is a text in the format of RFC 3339.

A type has a shape (`HasShape`) if exactly the documents of the shape are read, each is written as the
shape says, and every value reads back from what is written for it.

There are other ways of writing a record or a word than the ordinary ones.  Documents in which they are
used are not `plain`, and a shape says nothing about them.
-/

namespace CardHolds

/-- Which documents stand for the values of a type. -/
structure Shape where
  accepts : Json → Bool
  /-- The second document is what is written after the first one was read. -/
  canonical : Json → Json → Prop
  /-- No record is written as an array, and no word as an object. -/
  plain : Json → Bool

/-- A field of a record. -/
inductive Field where
  | required (name : String) (shape : Shape)
  /-- A field that may be absent or null. -/
  | optional (name : String) (shape : Shape)

namespace Field

def name : Field → String
  | required name _ => name
  | optional name _ => name

def shape : Field → Shape
  | required _ shape => shape
  | optional _ shape => shape

/-- Whether what is found under the name of the field will do. -/
def accepts : Field → Option Json → Bool
  | required _ _, none => false
  | required _ shape, some d => shape.accepts d
  | optional _ _, none => true
  | optional _ _, some .null => true
  | optional _ shape, some d => shape.accepts d

/-- What is written for the field after this was found under its name. -/
def canonical : Field → Option Json → Json → Prop
  | required _ _, none, _ => False
  | required _ shape, some d, d' => shape.canonical d d'
  | optional _ _, none, d' => d' = .null
  | optional _ _, some .null, d' => d' = .null
  | optional _ shape, some d, d' => shape.canonical d d'

/-- The entry is that of the field, written after this was found under its name. -/
def Rewrites (f : Field) (found : Option Json) (entry : String × Json) : Prop :=
  entry.1 = f.name ∧ f.canonical found entry.2

end Field

namespace Shape

/-- A string of any text. -/
def text : Shape where
  accepts
    | .string _ => true
    | _ => false
  canonical d d' := d' = d
  plain _ := true

/-- A number without fraction and exponent, from `low` to below `high`. -/
def integer (low high : Int) : Shape where
  accepts
    | .integer n => decide (low ≤ n ∧ n < high)
    | _ => false
  canonical d d' := d' = d
  plain _ := true

/-- An unsigned number of 64 bits. -/
def natural : Shape := integer 0 0x10000000000000000

/-- A signed number of 64 bits. -/
def signed : Shape := integer (-0x8000000000000000) 0x8000000000000000

/-- A string that denotes a point in time; what is written denotes the same one. -/
def time : Shape where
  accepts
    | .string s => decide (∃ t, Rfc3339.Denotes s t)
    | _ => false
  canonical d d' := ∃ s t, d = .string s ∧ d' = .string t.text ∧
    Rfc3339.Denotes s t ∧ Rfc3339.Denotes t.text t
  plain _ := true

/-- One of some words. -/
def word (words : List String) : Shape where
  accepts
    | .string s => words.contains s
    | _ => false
  canonical d d' := d' = d
  plain
    | .object _ => false
    | _ => true

/-- An array of documents of the same shape. -/
def list (item : Shape) : Shape where
  accepts
    | .array items => items.all item.accepts
    | _ => false
  canonical d d' := ∃ items items', d = .array items ∧ d' = .array items' ∧
    List.Forall₂ item.canonical items items'
  plain
    | .array items => items.all item.plain
    | _ => true

/-- An object with these fields, among others that do not matter; it is written with these alone, in
this order. -/
def record (fields : List Field) : Shape where
  accepts
    | .object given => fields.all fun f => f.accepts (given.lookup f.name)
    | _ => false
  canonical d d' := ∃ given written, d = .object given ∧ d' = .object written ∧
    List.Forall₂ (fun f entry => f.Rewrites (given.lookup f.name) entry) fields written
  plain
    | .object given => fields.all fun f => (given.lookup f.name).all f.shape.plain
    | .array _ => false
    | _ => true

end Shape

def Operation.shape : Shape := .word ["Authorization", "Capture", "Cancel", "Refund"]

def PaymentStatus.shape : Shape := .word [
  "wrong payment request",
  "Insufficient funds",
  "Approved",
  "Invalid amount",
  "Successful payment",
  "Successful cancel",
  "Successful refund",
  "Invalid transaction"]

/-! ## What is foreseen -/

/-- There is a value if and only if it is foreseen, and it has the property. -/
def Foreseen {α : Type} (found : Option α) (ok : Bool) (post : α → Prop) : Prop :=
  match found with
  | none => ok = false
  | some a => ok = true ∧ post a

namespace Foreseen
variable {α β : Type} {found : Option α} {ok ok' : Bool} {post : α → Prop} {post' : β → Prop}

theorem bind (h : Foreseen found ok post) {next : α → Option β}
    (hnext : ∀ a, post a → Foreseen (next a) ok' post') :
    Foreseen (found.bind next) (ok && ok') post' := by
  cases found with
  | none =>
    have hok : ok = false := h
    rw [hok]
    rfl
  | some a =>
    rw [h.1]
    exact hnext a h.2

theorem map (h : Foreseen found ok post) {f : α → β} (hf : ∀ a, post a → post' (f a)) :
    Foreseen (found.map f) ok post' := by
  cases found with
  | none => exact h
  | some a => exact ⟨h.1, hf a h.2⟩

theorem mono {post' : α → Prop} (h : Foreseen found ok post) (weaker : ∀ a, post a → post' a) :
    Foreseen found ok post' := by
  cases found with
  | none => exact h
  | some a => exact ⟨h.1, weaker a h.2⟩

theorem eq_none_iff (h : Foreseen found ok post) : found = none ↔ ok = false := by
  cases found with
  | none => exact iff_of_true rfl h
  | some a => exact iff_of_false nofun fun hok => Bool.noConfusion (hok.symm.trans h.1)

theorem of_eq_some (h : Foreseen found ok post) {a : α} (ha : found = some a) : post a := by
  rw [ha] at h
  exact h.2

end Foreseen

/-! ## Types that have a shape -/

open JsonForm

/-- A document is read if the shape accepts it, and written again as the shape says. -/
def Shape.Describes (shape : Shape) (α : Type) [JsonForm α] (d : Json) : Prop :=
  Foreseen (read? d : Option α) (shape.accepts d) fun a => shape.canonical d (write a)

/-- The JSON form of a type is that of a shape. -/
class HasShape (α : Type) [JsonForm α] (shape : outParam Shape) : Prop where
  read_write : ∀ a : α, read? (write a) = some a
  /-- An absent value is no value. -/
  read_null : (read? .null : Option α) = none
  describes : ∀ d, shape.plain d = true → shape.Describes α d

namespace HasShape
variable {α β : Type}

/-! ## Single values -/

instance text : HasShape String .text where
  read_write _ := rfl
  read_null := rfl
  describes d _ := by
    cases d with
    | string s => exact ⟨rfl, rfl⟩
    | _ => rfl

/-- A type that holds a value of another type and nothing else. -/
theorem via [JsonForm β] {shape : Shape} [HasShape β shape] (give : α → β) (take : β → α)
    (take_give : ∀ a, take (give a) = a) (give_take : ∀ b, give (take b) = b) :
    @HasShape α (JsonForm.via give fun b => some (take b)) shape := by
  refine @HasShape.mk α (JsonForm.via give fun b => some (take b)) shape (fun a => ?_) ?_ fun d hd => ?_
  · show (read? (write (give a)) : Option β).bind (fun b => some (take b)) = some a
    rw [read_write, Option.bind_some, take_give]
  · show (read? .null : Option β).bind (fun b => some (take b)) = none
    rw [read_null, Option.bind_none]
  · show Foreseen ((read? d : Option β).bind fun b => some (take b)) (shape.accepts d)
      fun a => shape.canonical d (write (give a))
    rw [← Bool.and_true (shape.accepts d)]
    refine (describes d hd).bind fun b hb => ⟨rfl, ?_⟩
    show shape.canonical d (write (give (take b)))
    rw [give_take]
    exact hb

instance accountId : HasShape AccountId .text := via _ _ (fun _ => rfl) fun _ => rfl

instance paymentId : HasShape PaymentId .text := via _ _ (fun _ => rfl) fun _ => rfl

instance secret : HasShape Secret .text := via _ _ (fun _ => rfl) fun _ => rfl

theorem readTime (s : String) : (read? (.string s) : Option Timestamp) = Timestamp.ofText? s := rfl

instance time : HasShape Timestamp .time where
  read_write t := (readTime t.text).trans t.ofText?_text
  read_null := rfl
  describes d _ := by
    cases d with
    | string s =>
      unfold Shape.Describes
      rw [readTime]
      cases hread : Timestamp.ofText? s with
      | none =>
        refine decide_eq_false fun ⟨t, ht⟩ => ?_
        rw [Timestamp.ofText?_eq_some_iff.mpr ht] at hread
        cases hread
      | some t =>
        have hdenotes := Timestamp.ofText?_eq_some_iff.mp hread
        exact ⟨decide_eq_true ⟨t, hdenotes⟩, s, t, rfl, rfl, hdenotes, t.denotes_text⟩
    | _ => rfl

/-- A type whose values are the numbers of a range. -/
theorem number [JsonForm α] {low high : Int} {value : α → Int}
    (write_eq : ∀ a : α, write a = .integer (value a))
    (read_integer : ∀ n a, (read? (.integer n) : Option α) = some a ↔ value a = n)
    (read_other : ∀ d a, (read? d : Option α) = some a → ∃ n, d = .integer n)
    (exists_value : ∀ n, (∃ a, value a = n) ↔ low ≤ n ∧ n < high) :
    HasShape α (.integer low high) where
  read_write a := by rw [write_eq, read_integer]
  read_null := by
    refine Option.eq_none_iff_forall_ne_some.mpr fun a ha => ?_
    obtain ⟨n, hn⟩ := read_other _ a ha
    cases hn
  describes d _ := by
    unfold Shape.Describes
    cases hread : (read? d : Option α) with
    | some a =>
      obtain ⟨n, rfl⟩ := read_other d a hread
      have ha := (read_integer n a).mp hread
      exact ⟨decide_eq_true ((exists_value n).mp ⟨a, ha⟩), (write_eq a).trans (congrArg _ ha)⟩
    | none =>
      cases d with
      | integer n =>
        refine decide_eq_false fun hn => ?_
        obtain ⟨a, ha⟩ := (exists_value n).mpr hn
        rw [(read_integer n a).mpr ha] at hread
        cases hread
      | _ => rfl

instance amount : HasShape Amount .natural :=
  number (fun _ => rfl)
    (fun n a => by
      show (if 0 ≤ n then Amount.ofNat? n.toNat else none) = some a ↔ (a.units : Int) = n
      split
      · rw [Amount.ofNat?_eq_some_iff]
        omega
      · simp only [reduceCtorEq, false_iff]
        omega)
    (fun d a h => by
      cases d with
      | integer n => exact ⟨n, rfl⟩
      | _ => cases h)
    (fun n => by
      constructor
      · rintro ⟨a, rfl⟩
        have hlt := a.units_lt
        omega
      · rintro ⟨hlow, hhigh⟩
        exact ⟨⟨n.toNat, by omega⟩, Int.toNat_of_nonneg hlow⟩)

instance signed : HasShape Int64 .signed :=
  number (fun _ => rfl)
    (fun k n => by
      show (if Int64.minValue.toInt ≤ k ∧ k ≤ Int64.maxValue.toInt then some (Int64.ofInt k) else none) =
        some n ↔ n.toInt = k
      have hlow := n.le_toInt
      have hhigh := n.toInt_lt
      rw [Int64.toInt_minValue, Int64.toInt_maxValue]
      split
      · rename_i hk
        rw [Option.some.injEq, ← Int64.toInt_inj, Int64.toInt_ofInt_of_le hk.1 (by omega)]
        exact eq_comm
      · simp only [reduceCtorEq, false_iff]
        omega)
    (fun d n h => by
      cases d with
      | integer k => exact ⟨k, rfl⟩
      | _ => cases h)
    (fun k => by
      constructor
      · rintro ⟨n, rfl⟩
        exact ⟨n.le_toInt, n.toInt_lt⟩
      · rintro ⟨hlow, hhigh⟩
        exact ⟨Int64.ofInt k, Int64.toInt_ofInt_of_le hlow hhigh⟩)

/-- A type whose values are words. -/
theorem word [JsonForm α] {text : α → String} {ofText? : String → Option α} {words : List String}
    (write_eq : ∀ a : α, write a = .string (text a))
    (read_eq : ∀ d, (read? d : Option α) = d.word?.bind ofText?)
    (ofText?_iff : ∀ {s a}, ofText? s = some a ↔ text a = s)
    (mem_words : ∀ s, s ∈ words ↔ ∃ a, text a = s) : HasShape α (.word words) where
  read_write a := by
    rw [write_eq, read_eq]
    exact ofText?_iff.mpr rfl
  read_null := read_eq _
  describes d hd := by
    unfold Shape.Describes
    rw [read_eq]
    cases d with
    | string s =>
      show match ofText? s with
        | none => words.contains s = false
        | some a => words.contains s = true ∧ write a = .string s
      cases hread : ofText? s with
      | none =>
        refine Bool.eq_false_iff.mpr fun hs => ?_
        obtain ⟨a, ha⟩ := (mem_words s).mp (List.contains_iff_mem.mp hs)
        rw [ofText?_iff.mpr ha] at hread
        cases hread
      | some a =>
        have ha := ofText?_iff.mp hread
        exact ⟨List.contains_iff_mem.mpr ((mem_words s).mpr ⟨a, ha⟩), by rw [write_eq, ha]⟩
    | object given => cases hd
    | _ => rfl

instance operation : HasShape Operation Operation.shape :=
  word (fun _ => rfl) (fun _ => rfl) Operation.ofText?_eq_some_iff fun s => by
    constructor
    · intro hs
      obtain ⟨operation, -, h⟩ : ∃ operation ∈ Operation.all, operation.text = s := List.mem_map.mp hs
      exact ⟨operation, h⟩
    · rintro ⟨operation, rfl⟩
      cases operation <;> decide

instance paymentStatus : HasShape PaymentStatus PaymentStatus.shape :=
  word (fun _ => rfl) (fun _ => rfl) PaymentStatus.ofText?_eq_some_iff fun s => by
    constructor
    · intro hs
      obtain ⟨status, -, h⟩ : ∃ status ∈ PaymentStatus.all, status.text = s := List.mem_map.mp hs
      exact ⟨status, h⟩
    · rintro ⟨status, rfl⟩
      cases status <;> decide

/-! ## Lists -/

variable [JsonForm α] {shape : Shape}

theorem readAll_write [HasShape α shape] (items : List α) :
    (items.map write).mapM read? = some items := by
  induction items with
  | nil => rfl
  | cons a rest ih =>
    rw [List.map_cons, List.mapM_cons, read_write, ih]
    rfl

theorem readAll_describes [HasShape α shape] (items : List Json)
    (hplain : items.all shape.plain = true) :
    Foreseen (items.mapM read? : Option (List α)) (items.all shape.accepts) fun values =>
      List.Forall₂ shape.canonical items (values.map write) := by
  induction items with
  | nil => exact ⟨rfl, .nil⟩
  | cons d rest ih =>
    rw [List.all_cons, Bool.and_eq_true] at hplain
    rw [List.mapM_cons, List.all_cons]
    -- one item that is rejected is enough to reject the list
    refine (describes (α := α) d hplain.1).bind fun a ha => ?_
    rw [← Bool.and_true (rest.all _)]
    exact (ih hplain.2).bind fun values hvalues => ⟨rfl, .cons ha hvalues⟩

instance list [HasShape α shape] : HasShape (List α) (.list shape) where
  read_write items := readAll_write items
  read_null := rfl
  describes d hd := by
    cases d with
    | array items =>
      have hitems : Foreseen (items.mapM read? : Option (List α)) _ _ := readAll_describes items hd
      exact hitems.mono fun values hvalues => ⟨items, values.map write, rfl, rfl, hvalues⟩
    | _ => rfl

end HasShape

end CardHolds
