import TsIngress.Tsapi.Impl.Mime

/-!
This module contains how the header functions of Traffic Server change the fields of one name, and that they leave
the other fields alone.
-/

def fieldsNamed (hdr : MimeHdr) (name : String) : MimeHdr :=
  hdr.filter (·.named name)

namespace MimeField

@[simp]
theorem named_str (name : String) (values : List Str) : (⟨str name, values⟩ : MimeField).named name = true := by
  simp [named]

theorem named_eq_false_of_ne {field : MimeField} {name other : String} (h : field.named name = true)
    (hne : (str name).map tolower ≠ (str other).map tolower)
    : field.named other = false := by
  unfold named at h ⊢
  rw [beq_iff_eq] at h
  rw [h, beq_eq_false_iff_ne]
  exact hne

end MimeField

theorem fieldsNamed_append (hdr hdr' : MimeHdr) (name : String)
    : fieldsNamed (hdr ++ hdr') name = fieldsNamed hdr name ++ fieldsNamed hdr' name := by
  exact List.filter_append hdr hdr'

structure FirstField (name : String) (hdr before : MimeHdr) (field : MimeField) (after : MimeHdr) : Prop where
  eq : hdr = before ++ field :: after
  named : field.named name = true
  first : fieldsNamed before name = []
  find : tsMimeHdrFieldFind hdr name = some before.length

theorem tsMimeHdrFieldFind_cases (hdr : MimeHdr) (name : String)
    : (tsMimeHdrFieldFind hdr name = none ∧ fieldsNamed hdr name = [])
        ∨
      ∃ before field after, FirstField name hdr before field after := by
  unfold fieldsNamed
  cases hfind : hdr.find? (·.named name) with
  | none =>
    left
    rw [List.find?_eq_none] at hfind
    refine ⟨?_, List.filter_eq_nil_iff.mpr hfind⟩
    unfold tsMimeHdrFieldFind
    rw [List.findIdx?_eq_none_iff]
    simpa using hfind
  | some field =>
    right
    rw [List.find?_eq_some_iff_append] at hfind
    rcases hfind with ⟨hnamed, before, after, heq, hbefore⟩
    refine ⟨before, field, after, heq, hnamed, ?_, ?_⟩
    . apply List.filter_eq_nil_iff.mpr
      simpa using hbefore
    . unfold tsMimeHdrFieldFind
      have hnone : before.findIdx? (·.named name) = none := by
        rw [List.findIdx?_eq_none_iff]
        simpa using hbefore
      rw [heq, List.findIdx?_append, List.findIdx?_cons, if_pos hnamed, hnone]
      simp

namespace FirstField

variable {name : String} {hdr before after : MimeHdr} {field : MimeField}

theorem remove (h : FirstField name hdr before field after)
    : tsMimeHdrFieldRemove hdr before.length = before ++ after := by
  unfold tsMimeHdrFieldRemove
  rw [h.eq, List.eraseIdx_append_of_length_le (Nat.le_refl _), Nat.sub_self, List.eraseIdx_cons_zero]

theorem values (h : FirstField name hdr before field after)
    : tsMimeHdrFieldValues hdr before.length = field.values := by
  unfold tsMimeHdrFieldValues
  rw [h.eq]
  simp

theorem valuesSet (h : FirstField name hdr before field after) (values : List Str)
    : tsMimeHdrFieldValuesSet hdr before.length values = before ++ { field with values := values } :: after := by
  unfold tsMimeHdrFieldValuesSet
  rw [h.eq, List.modify_eq_set_getElem?]
  simp

theorem fieldsNamed_eq (h : FirstField name hdr before field after)
    : fieldsNamed hdr name = field :: fieldsNamed after name := by
  have hfirst := h.first
  unfold fieldsNamed at hfirst ⊢
  rw [h.eq, List.filter_append, List.filter_cons, if_pos h.named, hfirst, List.nil_append]

theorem fieldsNamed_remove (h : FirstField name hdr before field after)
    : fieldsNamed (before ++ after) name = (fieldsNamed hdr name).tail := by
  rw [fieldsNamed_append, h.first, h.fieldsNamed_eq, List.nil_append, List.tail_cons]

theorem filter_remove (h : FirstField name hdr before field after) {p : MimeField → Bool} (hp : p field = false)
    : (before ++ after).filter p = hdr.filter p := by
  rw [h.eq, List.filter_append, List.filter_append, List.filter_cons_of_neg (by simp [hp])]

end FirstField
