import CardHolds.Proofs.Json.Shape

/-!
# Records as JSON objects

A `RowForm` is the form of the fields of a record, one after the other.  It is put together from the
forms of the single fields, and all that has to be known of it is proved on the way: what is written
reads back, and reading and writing again does to each field what the shape of the field says.

A record whose form is made of such a row has the shape of a record (`RowForm.read_write`,
`RowForm.describes`).
-/

namespace CardHolds

open JsonForm

/-- The forms of the fields of a record, whose values together are a `ρ`. -/
structure RowForm (ρ : Type) where
  fields : List Field
  /-- Reads the fields and makes something of the values. -/
  read : {α : Type} → Json.Fields → (ρ → α) → Option α
  write : ρ → List (String × Json)
  names_write : ∀ row, (write row).map Prod.fst = fields.map Field.name
  read_write : ∀ {α : Type} {found : Json.Fields} {row : ρ} (make : ρ → α),
    (∀ field ∈ write row, found field.1 = some field.2) → read found make = some (make row)
  exists_row : ∀ {α : Type} {found : Json.Fields} {make : ρ → α} {a : α},
    read found make = some a → ∃ row, make row = a
  describes : ∀ {α : Type} {found : Json.Fields} (make : ρ → α),
    (∀ f ∈ fields, (found f.name).all f.shape.plain = true) →
      Foreseen (read found make) (fields.all fun f => f.accepts (found f.name)) fun a =>
        ∃ row, a = make row ∧
          List.Forall₂ (fun f entry => f.Rewrites (found f.name) entry) fields (write row)

namespace RowForm
variable {α β ρ : Type}

/-- The names of the fields, in order. -/
def names (form : RowForm ρ) : List String := form.fields.map Field.name

/-- No fields. -/
def nil : RowForm Unit where
  fields := []
  read _ make := some (make ())
  write _ := []
  names_write _ := rfl
  read_write _ _ := rfl
  exists_row h := ⟨(), Option.some.inj h⟩
  describes _ _ := ⟨rfl, (), rfl, .nil⟩

/-- One field more, before the others. -/
def cons (field : Field) (readField : Json.Fields → Option β) (writeField : β → Json)
    (read_writeField : ∀ {found : Json.Fields} {b : β},
      found field.name = some (writeField b) → readField found = some b)
    (describesField : ∀ {found : Json.Fields}, (found field.name).all field.shape.plain = true →
      Foreseen (readField found) (field.accepts (found field.name)) fun b =>
        field.canonical (found field.name) (writeField b))
    (rest : RowForm ρ) : RowForm (β × ρ) where
  fields := field :: rest.fields
  read found make := (readField found).bind fun b => rest.read found fun row => make (b, row)
  write row := (field.name, writeField row.1) :: rest.write row.2
  names_write row := congrArg (field.name :: ·) (rest.names_write row.2)
  read_write make hfound := by
    rw [read_writeField (hfound _ List.mem_cons_self), Option.bind_some]
    exact rest.read_write _ fun f hf => hfound f (List.mem_cons_of_mem _ hf)
  exists_row h := by
    obtain ⟨b, -, h⟩ := Option.bind_eq_some_iff.mp h
    obtain ⟨row, hrow⟩ := rest.exists_row h
    exact ⟨(b, row), hrow⟩
  describes make hplain := by
    refine (describesField (hplain field List.mem_cons_self)).bind fun b hb => ?_
    have hrest := rest.describes (fun row => make (b, row)) fun f hf =>
      hplain f (List.mem_cons_of_mem _ hf)
    exact hrest.mono fun a ⟨row, ha, hrow⟩ => ⟨(b, row), ha, .cons ⟨rfl, hb⟩ hrow⟩

section
variable [JsonForm β] {shape : Shape} [HasShape β shape] {found : Json.Fields} {name : String}

theorem required?_describes (hplain : (found name).all shape.plain = true) :
    Foreseen (required? found name : Option β) ((Field.required name shape).accepts (found name))
      fun b => (Field.required name shape).canonical (found name) (JsonForm.write b) := by
  unfold required?
  cases hd : found name with
  | none => rfl
  | some d =>
    rw [hd] at hplain
    exact HasShape.describes d hplain

theorem optional?_describes (hplain : (found name).all shape.plain = true) :
    Foreseen (optional? found name : Option (Option β))
      ((Field.optional name shape).accepts (found name))
      fun b => (Field.optional name shape).canonical (found name) (writeOptional b) := by
  unfold optional?
  cases hd : found name with
  | none => exact ⟨rfl, rfl⟩
  | some d =>
    rw [hd] at hplain
    have hread : Foreseen (read? d : Option β) _ _ := HasShape.describes d hplain
    cases d with
    | null => exact ⟨rfl, rfl⟩
    | _ => exact hread.map fun b hb => hb

include shape in
theorem required?_eq {b : β} (hfound : found name = some (JsonForm.write b)) :
    required? found name = some b := by
  rw [required?, hfound, Option.bind_some, HasShape.read_write]

include shape in
/-- What is written for a value is never null. -/
theorem optional?_eq {value : Option β} (hfound : found name = some (writeOptional value)) :
    optional? found name = some value := by
  cases value with
  | none =>
    have hnull : found name = some .null := hfound
    rw [optional?, hnull]
  | some b =>
    have hread : read? (JsonForm.write b) = some b := HasShape.read_write b
    have hwrite : found name = some (JsonForm.write b) := hfound
    -- a value that is written as null could not be told from none
    cases hd : JsonForm.write b with
    | null =>
      rw [hd, HasShape.read_null] at hread
      cases hread
    | _ =>
      rw [hd] at hread hwrite
      rw [optional?, hwrite]
      exact congrArg (Option.map some) hread

/-- A field that has to be there. -/
def required (name : String) (rest : RowForm ρ) : RowForm (β × ρ) :=
  cons (.required name shape) (required? · name) JsonForm.write required?_eq required?_describes rest

/-- A field that may be absent or null. -/
def optional (name : String) (rest : RowForm ρ) : RowForm (Option β × ρ) :=
  cons (.optional name shape) (optional? · name) writeOptional optional?_eq optional?_describes rest

end

/-- Every name finds what is written for it, if no name is written twice. -/
theorem lookup_write (form : RowForm ρ) (nodup : form.names.Nodup) (row : ρ) {field : String × Json}
    (hfield : field ∈ form.write row) : (form.write row).lookup field.1 = some field.2 := by
  have hkeys : ((form.write row).map Prod.fst).Nodup := by
    rw [form.names_write]
    exact nodup
  generalize form.write row = written at hfield hkeys
  induction written with
  | nil => cases hfield
  | cons first rest ih =>
    rw [List.map_cons, List.nodup_cons] at hkeys
    rcases List.mem_cons.mp hfield with rfl | hfield
    · exact List.lookup_cons_self
    · -- the first entry under a name is the one that is found
      have hne : field.1 ≠ first.1 := fun h => hkeys.1 (h ▸ List.mem_map_of_mem hfield)
      rw [List.lookup_cons, beq_eq_false_iff_ne.mpr hne]
      exact ih hfield hkeys.2

section
variable [JsonForm α] (form : RowForm ρ) (make : ρ → α)
  (read_eq : ∀ d, (read? d : Option α) = (d.record? form.names).bind fun found => form.read found make)
  (write_eq : ∀ row, JsonForm.write (make row) = .object (form.write row))

include read_eq write_eq

/-- **What is written for a record reads back.** -/
theorem readRecord_write (nodup : form.names.Nodup) (row : ρ) :
    (read? (JsonForm.write (make row)) : Option α) = some (make row) := by
  rw [read_eq, write_eq]
  exact form.read_write make fun _ => form.lookup_write nodup row

/-- **A record has the shape of its fields.** -/
theorem describes_record {d : Json} (hplain : (Shape.record form.fields).plain d = true) :
    (Shape.record form.fields).Describes α d := by
  unfold Shape.Describes
  rw [read_eq]
  cases d with
  | object given =>
    have hgiven : ∀ f ∈ form.fields, (given.lookup f.name).all f.shape.plain = true :=
      List.all_eq_true.mp hplain
    refine (form.describes make hgiven).mono fun a ⟨row, ha, hrow⟩ => ?_
    rw [ha, write_eq]
    exact ⟨given, form.write row, rfl, rfl, hrow⟩
  | array items => cases hplain
  | _ => rfl

/-- A type whose values are all records of this form. -/
theorem hasShape (nodup : form.names.Nodup) (give : α → ρ) (make_give : ∀ a, make (give a) = a) :
    HasShape α (.record form.fields) where
  read_write a := by
    rw [← make_give a]
    exact form.readRecord_write make read_eq write_eq nodup (give a)
  read_null := read_eq .null
  describes _ := form.describes_record make read_eq write_eq

end

end RowForm

end CardHolds
