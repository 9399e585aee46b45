import ChannelLog.Block
import ChannelLog.Proofs.Json.Records

/-!
# Written blocks are read as they were written

A block comes back with its header and its signatures; only payloads are read again as values, and
that can fail, since they are nested inside the block.

* `Transaction.isSome_ofSource?_source`: a transaction is read exactly if its payload is nested no
  deeper than what is left at its place.
* `Block.ofText?_text`: a block is read exactly if all its transactions are, and with its header.
-/

namespace ChannelLog

open Json (fieldSources)
open Json.Source

/-! ## Signatures -/

theorem SignatureMethod.ofSource?_source (m : SignatureMethod) :
    SignatureMethod.ofSource? m.toJson.source = some m := by
  cases m
  rfl

theorem Signature.ofSource?_source (s : Signature) :
    Signature.ofSource? s.toJson.source = some s := by
  have hs : s.toJson.source
      = .object (fieldSources [("method", some s.method.toJson), ("value", some (.string s.value))])
    := rfl
  rw [ofSource?, hs, fields?_fieldSources ["method", "value"] rfl (by decide)]
  simp [required?, SignatureMethod.ofSource?_source]

/-! ## Transactions -/

namespace Content

/-- The payload holds only numbers that values hold. -/
def InRange (c : Content) : Prop := ∀ v, c.data = some v → v.InRange

/-- How deep the payload is nested. -/
def payloadDepth (c : Content) : Nat := (c.data.map Json.depth).getD 0

theorem source_string_ne_null (s : String) :
    (Json.string s).source ≠ .null ∧ text? (Json.string s).source = some s := ⟨by simp [Json.source], rfl⟩

/-- **Only the payload of a content can come back changed.** -/
theorem ofSource?_fieldSources (depth : Nat) (c : Content) :
    ofSource? depth (.object (fieldSources c.fields))
      = (optional? (value? depth) (c.data.map Json.source)).map fun data => { c with data } := by
  have hkeys : ∀ d : Dict String, (Json.ofDict .string d).source ≠ .null ∧
      dict? text? (Json.ofDict .string d).source = some d :=
    fun d => ⟨by simp [Json.ofDict, Json.source], dict?_ofDict fun _ _ => rfl⟩
  rw [ofSource?, fields?_fieldSources ["data", "encryptedData", "encryptionMethod", "keys", "hash"]
    rfl (by decide)]
  simp only [fields, List.map_cons, List.map_nil, Option.bind_eq_bind, Option.bind_some,
    optional?_map source_string_ne_null, optional?_map hkeys]
  cases optional? (value? depth) (c.data.map Json.source) <;> rfl

theorem isSome_optional?_data {c : Content} (h : c.InRange) (depth : Nat) :
    (optional? (value? depth) (c.data.map Json.source)).isSome ↔ c.payloadDepth ≤ depth := by
  unfold payloadDepth
  cases hd : c.data with
  | none => simp [optional?]
  | some v =>
    have hv := isSome_value?_source (h v hd) depth
    rw [Option.map_some, Option.map_some, Option.getD_some, ← hv]
    unfold optional?
    split
    · next he => simp at he
    · next he =>
      rw [Option.some.inj he]
      rfl
    · next he =>
      obtain rfl := Option.some.inj he
      rw [Option.isSome_map]

theorem isSome_memberValues?_fields {c : Content} (h : c.InRange) {depth : Nat} (hd : 0 < depth) :
    (memberValues? depth (fieldSources c.fields)).isSome ↔ c.payloadDepth ≤ depth := by
  have hstring : ∀ s : Option String, ∀ v, s.map Json.string = some v → v.InRange ∧ v.depth = 0 := by
    rintro s v hv
    obtain ⟨s, -, rfl⟩ := Option.map_eq_some_iff.1 hv
    exact ⟨trivial, rfl⟩
  have hkeys : ∀ v, c.keys.map (Json.ofDict .string) = some v → v.InRange ∧ v.depth ≤ 1 := by
    rintro v hv
    obtain ⟨d, -, rfl⟩ := Option.map_eq_some_iff.1 hv
    refine ⟨Json.membersInRange_iff.2 fun m hm => ?_, Nat.succ_le_succ
      (Json.memberDepth_le_iff.2 fun m hm => ?_)⟩
    all_goals
      obtain ⟨e, -, rfl⟩ := List.mem_map.1 hm
    · trivial
    · exact Nat.le_refl 0
  rw [isSome_memberValues?_fieldSources]
  · unfold payloadDepth
    simp only [fields, List.forall_mem_cons]
    constructor
    · rintro ⟨hdata, -⟩
      cases he : c.data with
      | none => exact Nat.zero_le _
      | some v => exact hdata v he
    · intro hle
      refine ⟨fun v hv => ?_, fun v hv => ?_, fun v hv => ?_, fun v hv => ?_, fun v hv => ?_,
        fun _ hf => by simp at hf⟩
      · rwa [hv] at hle
      · exact Nat.le_trans (hstring _ v hv).2.le (Nat.zero_le _)
      · exact Nat.le_trans (hstring _ v hv).2.le (Nat.zero_le _)
      · exact Nat.le_trans (hkeys v hv).2 hd
      · exact Nat.le_trans (hstring _ v hv).2.le (Nat.zero_le _)
  · simp only [fields, List.forall_mem_cons]
    exact ⟨h, fun v hv => (hstring _ v hv).1, fun v hv => (hstring _ v hv).1,
      fun v hv => (hkeys v hv).1, fun v hv => (hstring _ v hv).1, fun _ hf => by simp at hf⟩

end Content

namespace Transaction

/-- **A transaction comes back with its signature and the fields of its content**, if its values
are read. -/
theorem ofSource?_source (depth : Nat) (t : Transaction) :
    ofSource? depth t.toJson.source
      = (memberValues? depth (fieldSources t.content.fields)).bind fun _ =>
        (optional? (value? depth) (t.content.data.map Json.source)).map fun data =>
          ⟨{ t.content with data }, t.signature⟩ := by
  have hsource : t.toJson.source
      = .object (fieldSources (t.content.fields ++ [("signature", some t.signature.toJson)])) := rfl
  have hothers : (fieldSources (t.content.fields ++ [("signature", some t.signature.toJson)])).filter
      (·.1 ≠ some "signature") = fieldSources t.content.fields := by
    have hlast : fieldSources [("signature", some t.signature.toJson)]
        = [(some "signature", t.signature.toJson.source)] := rfl
    rw [Json.fieldSources_append, List.filter_append, hlast]
    have hself : (fieldSources t.content.fields).filter (·.1 ≠ some "signature")
        = fieldSources t.content.fields := by
      rw [List.filter_eq_self]
      intro m hm
      obtain ⟨name, hn, he⟩ := Json.exists_of_mem_fieldSources hm
      rw [decide_eq_true_iff, he, ne_eq, Option.some.injEq]
      rintro rfl
      simp [Content.fields] at hn
    rw [hself]
    simp
  have hunique : unique? (fieldSources (t.content.fields ++ [("signature",
      some t.signature.toJson)])) "signature" = some (some t.signature.toJson.source) :=
    unique?_fieldSources (by simp [Content.fields]) (some t.signature.toJson) (by simp)
  rw [hsource, ofSource?]
  simp only [hothers, hunique, Option.bind_eq_bind, Option.bind_some, required?,
    Signature.ofSource?_source, Content.ofSource?_fieldSources]
  cases memberValues? depth (fieldSources t.content.fields) <;>
    cases optional? (value? depth) (t.content.data.map Json.source) <;> rfl

/-- **A transaction is read exactly if its payload is nested no deeper than what is left** at its
place. -/
theorem isSome_ofSource?_source {t : Transaction} (h : t.content.InRange) (depth : Nat)
    (hd : 0 < depth) :
    (ofSource? depth t.toJson.source).isSome ↔ t.content.payloadDepth ≤ depth := by
  have h₁ := Content.isSome_memberValues?_fields h hd
  have h₂ := Content.isSome_optional?_data h depth
  rw [ofSource?_source, ← h₁]
  rw [← h₁] at h₂
  cases hm : memberValues? depth (fieldSources t.content.fields) with
  | none => simp
  | some values =>
    rw [hm] at h₂
    simpa using h₂

end Transaction

/-! ## Blocks -/

namespace Block

/-- Positions fit the numbers that are read. -/
def PositionsInRange (b : Block) : Prop :=
  ∀ e ∈ b.header.index.entries, ∀ p ∈ e.2, p < UInt64.size

theorem ofSource?_header {b : Block} (h : b.PositionsInRange) :
    Header.ofSource? b.header.toJson.source = some b.header := by
  have hindex : dict? (list? natural?)
      (Json.ofDict (fun positions => .array (positions.map .ofNat)) b.header.index).source
        = some b.header.index := by
    refine dict?_ofDict fun e he => ?_
    have hread : ∀ p ∈ e.2, natural? (Json.ofNat p).source = some (id p) :=
      fun p hp => natural?_ofNat (h e he p hp)
    rw [list?_map, Json.mapM_eq_some_map hread, List.map_id]
  have hs : b.header.toJson.source = .object (fieldSources [
      ("version", some (.string b.header.version)),
      ("index", some (.ofDict (fun positions => .array (positions.map .ofNat)) b.header.index))])
    := rfl
  rw [Header.ofSource?, hs, fields?_fieldSources ["version", "index"] rfl (by decide)]
  simp [required?, hindex]

/-- **A block comes back with its header, if all its transactions are read.** -/
theorem ofText?_text {b : Block} (h : b.PositionsInRange) :
    ofText? b.text
      = (b.transactions.mapM fun t => Transaction.ofSource? (Json.depthLimit - 3) t.toJson.source).map
        (⟨b.header, ·⟩) := by
  have hs : b.toJson.source = .object (fieldSources [("header", some b.header.toJson),
      ("transactions", some (.array (b.transactions.map (·.toJson))))]) := rfl
  rw [ofText?, text, Json.Source.ofText?_text, Option.bind_eq_bind, Option.bind_some, ofSource?, hs,
    fields?_fieldSources ["header", "transactions"] rfl (by decide)]
  simp only [List.map_cons, List.map_nil, Option.map_some, Option.bind_eq_bind, Option.bind_some,
    required?, ofSource?_header h, list?_map]
  cases b.transactions.mapM fun t => Transaction.ofSource? (Json.depthLimit - 3) t.toJson.source <;>
    rfl

end Block

end ChannelLog
