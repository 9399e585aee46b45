import ChannelLog.Proofs.Json.Fingerprints
import ChannelLog.Proofs.Json.Reordering
import ChannelLog.Transaction

/-!
# What the hashes of a transaction bind

A content is signed by the hash of its canonical text, and a transaction is identified by that of
its own, with the signature in it. Fields that are left out leave no trace in the text, so the
fields that are there have to be told from it.

* `Content.Agrees`: contents with the same fields, whose payloads are the same up to the order of
  members.
* `Content.reordered_toJson_iff`, `Transaction.reordered_toJson_iff`: these are the contents, and
  with equal signatures the transactions, that are written as the same value.
* `Transaction.bound_by_hashes`: **so the signed hash binds every field of the content, and the
  content hash also the signature**, but for collisions of the hash.
-/

namespace ChannelLog

open Json (Reordered Collide)

/-! ## Contents -/

namespace Content

/-- The contents have the same fields: the payloads up to the order of members, the others as they
are. A payload `null` is not the same as none. -/
structure Agrees (c d : Content) : Prop where
  data : Option.Rel Reordered c.data d.data
  encryptedData : c.encryptedData = d.encryptedData
  encryptionMethod : c.encryptionMethod = d.encryptionMethod
  keys : c.keys = d.keys
  hash : c.hash = d.hash

theorem agrees_iff_eq {c d : Content} (hc : ∀ v ∈ c.data, v.canonical = v)
    (hd : ∀ v ∈ d.data, v.canonical = v) : c.Agrees d ↔ c = d := by
  constructor
  · rintro ⟨hdata, hencrypted, hmethod, hkeys, hhash⟩
    obtain ⟨data, _, _, _, _⟩ := c
    obtain ⟨data', _, _, _, _⟩ := d
    obtain rfl : data = data' := by
      cases hdata with
      | none => rfl
      | some h => rw [(Json.reordered_iff_eq (hc _ rfl) (hd _ rfl)).1 h]
    simp only at hencrypted hmethod hkeys hhash
    subst hencrypted hmethod hkeys hhash
    rfl
  · rintro rfl
    exact ⟨Reordered.option_refl _, rfl, rfl, rfl, rfl⟩

theorem nodup_names (c : Content) : (c.fields.map (·.1)).Nodup := by
  simp only [fields, List.map_cons, List.map_nil]
  decide

theorem keysDistinct_field {c : Content} (h : ∀ v ∈ c.data, v.KeysDistinct) {name : String}
    {v : Json} (hv : (name, some v) ∈ c.fields) : v.KeysDistinct := by
  have hmapped : ∀ {α : Type} {f : α → Json} {x : Option α}, (∀ a, (f a).KeysDistinct) →
      some v = x.map f → v.KeysDistinct := by
    intro α f x hf hx
    obtain ⟨a, -, rfl⟩ := Option.map_eq_some_iff.1 hx.symm
    exact hf a
  have hstring : ∀ s, (Json.string s).KeysDistinct := fun _ => trivial
  simp only [fields, List.mem_cons, List.not_mem_nil, or_false, Prod.mk.injEq] at hv
  rcases hv with ⟨-, hv⟩ | ⟨-, hv⟩ | ⟨-, hv⟩ | ⟨-, hv⟩ | ⟨-, hv⟩
  · exact h v hv.symm
  · exact hmapped hstring hv
  · exact hmapped hstring hv
  · exact hmapped Json.keysDistinct_ofDict hv
  · exact hmapped hstring hv

theorem agrees_of_fields {c d : Content} (h : ∀ name x y, (name, x) ∈ c.fields →
    (name, y) ∈ d.fields → Option.Rel Reordered x y) : c.Agrees d where
  data := h "data" _ _ (by simp [fields]) (by simp [fields])
  encryptedData := Json.eq_of_rel_map Json.eq_of_reordered_string
    (h "encryptedData" _ _ (by simp [fields]) (by simp [fields]))
  encryptionMethod := Json.eq_of_rel_map Json.eq_of_reordered_string
    (h "encryptionMethod" _ _ (by simp [fields]) (by simp [fields]))
  keys := Json.eq_of_rel_map Json.eq_of_reordered_ofDict
    (h "keys" _ _ (by simp [fields]) (by simp [fields]))
  hash := Json.eq_of_rel_map Json.eq_of_reordered_string
    (h "hash" _ _ (by simp [fields]) (by simp [fields]))

theorem Agrees.fields {c d : Content} (h : c.Agrees d) :
    List.Forall₂ (fun f g => f.1 = g.1 ∧ Option.Rel Reordered f.2 g.2) c.fields d.fields := by
  rw [Content.fields, Content.fields, h.encryptedData, h.encryptionMethod, h.keys, h.hash]
  refine .cons ⟨rfl, h.data⟩ (List.forall₂_same.2 fun f _ => ⟨rfl, Reordered.option_refl _⟩)

/-- **Contents are written as the same value exactly if they agree.** -/
theorem reordered_toJson_iff {c d : Content} : Reordered c.toJson d.toJson ↔ c.Agrees d := by
  constructor
  · intro h
    exact agrees_of_fields fun name x y hx hy => h.rel_field c.nodup_names d.nodup_names hx hy
  · intro h
    exact Json.reordered_ofFields h.fields

theorem keysDistinct_toJson {c : Content} (h : ∀ v ∈ c.data, v.KeysDistinct) :
    c.toJson.KeysDistinct :=
  Json.keysDistinct_ofFields c.nodup_names fun _ _ => keysDistinct_field h

end Content

/-! ## Transactions -/

theorem Signature.eq_of_reordered_toJson {s s' : Signature} (h : Reordered s.toJson s'.toJson) :
    s = s' := by
  obtain ⟨method, value⟩ := s
  obtain ⟨method', value'⟩ := s'
  cases method
  cases method'
  have hvalue := Json.Reordered.rel_findValue? h (by simp) "value"
  have heq : value = value' := Json.eq_of_reordered_string (Option.rel_some_some.1 hvalue)
  rw [heq]

namespace Transaction

theorem nodup_names (t : Transaction) :
    ((t.content.fields ++ [("signature", some t.signature.toJson)]).map (·.1)).Nodup := by
  simp only [Content.fields, List.map_cons, List.map_nil, List.cons_append, List.nil_append]
  decide

/-- **Transactions are written as the same value exactly if their contents agree and their
signatures are equal.** -/
theorem reordered_toJson_iff {t u : Transaction} :
    Reordered t.toJson u.toJson ↔ t.content.Agrees u.content ∧ t.signature = u.signature := by
  constructor
  · intro h
    refine ⟨Content.agrees_of_fields fun name x y hx hy => ?_, ?_⟩
    · exact h.rel_field t.nodup_names u.nodup_names (List.mem_append_left _ hx)
        (List.mem_append_left _ hy)
    · have hsignature := h.rel_field t.nodup_names u.nodup_names
        (List.mem_append_right _ (List.mem_singleton_self _))
        (List.mem_append_right _ (List.mem_singleton_self _))
      exact Signature.eq_of_reordered_toJson (Option.rel_some_some.1 hsignature)
  · rintro ⟨hcontent, hsignature⟩
    refine Json.reordered_ofFields (List.rel_append hcontent.fields ?_)
    rw [hsignature]
    exact .cons ⟨rfl, Reordered.option_refl _⟩ .nil

theorem keysDistinct_toJson {t : Transaction} (h : ∀ v ∈ t.content.data, v.KeysDistinct) :
    t.toJson.KeysDistinct := by
  refine Json.keysDistinct_ofFields t.nodup_names fun name v hv => ?_
  rcases List.mem_append.1 hv with hv | hv
  · exact Content.keysDistinct_field h hv
  · obtain ⟨-, hv⟩ := Prod.mk.inj (List.mem_singleton.1 hv)
    rw [Option.some.inj hv]
    exact ⟨by simp, trivial, trivial, trivial⟩

/-- **The canonical form is unambiguous.** Two values whose objects have no key twice, as those of
all values that were read, have one canonical text exactly if they are the same up to the order of
members. For transactions with such payloads

* contents have one signed text exactly if they agree, and one signed hash only if they do, or if
  their texts collide;
* transactions have one text to be hashed exactly if also their signatures are equal, and one
  content hash only then, or if these texts collide;
* with payloads in canonical form, contents that agree are equal. -/
theorem bound_by_hashes :
    (∀ v w : Json, v.KeysDistinct → w.KeysDistinct →
      (v.canonicalText = w.canonicalText ↔ Reordered v w)) ∧
    ∀ t u : Transaction, (∀ v ∈ t.content.data, v.KeysDistinct) →
      (∀ v ∈ u.content.data, v.KeysDistinct) →
      (t.content.toJson.canonicalText = u.content.toJson.canonicalText
        ↔ t.content.Agrees u.content) ∧
      (t.content.signingHash = u.content.signingHash ↔ t.content.Agrees u.content ∨
        Collide t.content.toJson.canonicalText u.content.toJson.canonicalText) ∧
      (t.toJson.canonicalText = u.toJson.canonicalText
        ↔ t.content.Agrees u.content ∧ t.signature = u.signature) ∧
      (t.contentHash = u.contentHash ↔ t.content.Agrees u.content ∧ t.signature = u.signature ∨
        Collide t.toJson.canonicalText u.toJson.canonicalText) ∧
      ((∀ v ∈ t.content.data, v.canonical = v) → (∀ v ∈ u.content.data, v.canonical = v) →
        (t.content.Agrees u.content ↔ t.content = u.content)) := by
  refine ⟨fun v w => Json.canonicalText_eq_iff, fun t u ht hu => ?_⟩
  have hcontent : t.content.toJson.canonicalText = u.content.toJson.canonicalText
      ↔ t.content.Agrees u.content := by
    rw [Json.canonicalText_eq_iff (Content.keysDistinct_toJson ht) (Content.keysDistinct_toJson hu),
      Content.reordered_toJson_iff]
  have hwhole : t.toJson.canonicalText = u.toJson.canonicalText
      ↔ t.content.Agrees u.content ∧ t.signature = u.signature := by
    rw [Json.canonicalText_eq_iff (keysDistinct_toJson ht) (keysDistinct_toJson hu),
      reordered_toJson_iff]
  refine ⟨hcontent, ?_, hwhole, ?_, Content.agrees_iff_eq⟩
  · rw [Content.signingHash, Content.signingHash, Json.digest_eq_iff, hcontent]
  · rw [contentHash, contentHash, Json.fingerprint_eq_iff, hwhole]

/-- A payload with an object in it, whose members stand in one order or the other. -/
def exampleOrder (swapped : Bool) : Json :=
  let members := [("a", Json.ofNat 1), ("b", .null)]
  .array [.object (if swapped then members.reverse else members)]

theorem keysDistinct_exampleOrder (swapped : Bool) : (exampleOrder swapped).KeysDistinct := by
  cases swapped <;> exact ⟨⟨by decide, trivial, trivial, trivial⟩, trivial⟩

theorem reordered_exampleOrder : Reordered (exampleOrder false) (exampleOrder true) :=
  .array (.cons (.object (.cons (.refl _) (.cons (.refl _) .nil)) (List.Perm.swap _ _ _)) .nil)

/-- The order of members changes no hash, and a payload `null` is not signed as none. -/
theorem bound_by_hashes_exampleOrder :
    (exampleOrder false).canonicalText = (exampleOrder true).canonicalText ∧
    contentHash ⟨.clear (exampleOrder false), .ecdsa, ""⟩
      = contentHash ⟨.clear (exampleOrder true), .ecdsa, ""⟩ ∧
    (Content.clear .null).toJson.canonicalText ≠ (Content.toJson {}).canonicalText := by
  have hdistinct : ∀ swapped, ∀ v ∈ (Content.clear (exampleOrder swapped)).data,
      v.KeysDistinct := by
    rintro swapped v ⟨⟩
    exact keysDistinct_exampleOrder swapped
  refine ⟨?_, ?_, fun h => ?_⟩
  · exact (bound_by_hashes.1 _ _ (keysDistinct_exampleOrder false)
      (keysDistinct_exampleOrder true)).2 reordered_exampleOrder
  · obtain ⟨-, -, -, hhash, -⟩ := bound_by_hashes.2 ⟨.clear (exampleOrder false), .ecdsa, ""⟩
      ⟨.clear (exampleOrder true), .ecdsa, ""⟩ (hdistinct false) (hdistinct true)
    exact hhash.2 (.inl ⟨⟨.some reordered_exampleOrder, rfl, rfl, rfl, rfl⟩, rfl⟩)
  · obtain ⟨hcontent, -⟩ := bound_by_hashes.2 ⟨.clear .null, .ecdsa, ""⟩ ⟨{}, .ecdsa, ""⟩
      (by rintro v ⟨⟩; trivial) (by rintro v ⟨⟩)
    exact nomatch (hcontent.1 h).data

end Transaction

end ChannelLog
