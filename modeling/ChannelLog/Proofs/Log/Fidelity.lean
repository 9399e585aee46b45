import ChannelLog.Proofs.Json.Bytes
import ChannelLog.Proofs.Json.ReadBack
import ChannelLog.Proofs.Log.Readability
import ChannelLog.Proofs.Log.Runs

/-!
# Which transactions come back as they were signed

A transaction that is persisted is written into a block, and look-ups serve what the block is read
as.

* `Content.Faithful`: there is no payload, or one that is not `null` and reads back as itself.
* `Transaction.eq_iff_of_ofSource?_source`, `Log.checkBlock_faithful`: contents of this kind are read
  as they were written.
* `Log.served_as_signed_iff`: **what is served where a transaction was persisted is the transaction
  that was signed exactly if its content is faithful**; nothing but the payload can differ.
-/

namespace ChannelLog

open Json (fieldSources)
open Json.Source (optional? value?)
open Block (payloadLimit)

/-! ## Contents -/

namespace Content

/-- The payload is written in such a way that it is read as itself. A payload `null` is read as no
payload. -/
def Faithful (c : Content) : Prop := ∀ v, c.data = some v → v ≠ .null ∧ v.ReadsBack

theorem faithful_of_data_eq_none {c : Content} (h : c.data = none) : c.Faithful := by
  intro v hv
  rw [h] at hv
  exact nomatch hv

theorem Faithful.inRange {c : Content} (h : c.Faithful) : c.InRange :=
  fun v hv => (h v hv).2.inRange

/-- **The payload is read as itself exactly if the content is faithful**, and it is nested no deeper
than allowed. -/
theorem optional?_data_eq_some_iff (c : Content) (depth : Nat) :
    optional? (value? depth) (c.data.map Json.source) = some c.data
      ↔ c.Faithful ∧ c.payloadDepth ≤ depth := by
  unfold Faithful payloadDepth
  cases hd : c.data with
  | none => simp [optional?]
  | some v =>
    have hv := Json.Source.value?_source_eq_some_iff v depth
    simp only [Option.map_some, Option.getD_some, Option.some.injEq, forall_eq']
    by_cases hn : v = .null
    · subst hn
      simp [Json.source, optional?]
    · have hsource : v.source ≠ .null := by
        cases v <;> simp_all [Json.source]
      have hread : optional? (value? depth) (some v.source) = (value? depth v.source).map some := by
        unfold optional?
        split
        · next he => simp at he
        · next he => exact absurd (Option.some.inj he) hsource
        · next he => rw [Option.some.inj he]
      rw [hread, Option.map_eq_some_iff]
      simp only [Option.some.injEq, exists_eq_right, hv, ne_eq, hn, not_false_eq_true, true_and]
      exact and_comm

end Content

/-! ## Transactions and blocks -/

namespace Transaction

theorem exists_of_ofSource?_source {t u : Transaction} {depth : Nat}
    (h : ofSource? depth t.toJson.source = some u) :
    ∃ data, optional? (value? depth) (t.content.data.map Json.source) = some data ∧
      u = ⟨{ t.content with data }, t.signature⟩ := by
  rw [ofSource?_source] at h
  obtain ⟨_, -, h⟩ := Option.bind_eq_some_iff.1 h
  obtain ⟨data, hdata, rfl⟩ := Option.map_eq_some_iff.1 h
  exact ⟨data, hdata, rfl⟩

/-- **A transaction is read as itself exactly if its content is faithful.** -/
theorem eq_iff_of_ofSource?_source {t u : Transaction} {depth : Nat}
    (h : ofSource? depth t.toJson.source = some u) : u = t ↔ t.content.Faithful := by
  obtain ⟨data, hdata, rfl⟩ := exists_of_ofSource?_source h
  have hiff := t.content.optional?_data_eq_some_iff depth
  constructor
  · intro he
    have hsame : data = t.content.data := congrArg (·.content.data) he
    rw [hsame] at hdata
    exact (hiff.1 hdata).1
  · intro hf
    have hdepth : t.content.payloadDepth ≤ depth := by
      rw [← Content.isSome_optional?_data hf.inRange, hdata, Option.isSome_some]
    have hself := hiff.2 ⟨hf, hdepth⟩
    rw [hdata] at hself
    rw [Option.some.inj hself]

end Transaction

namespace Log

theorem checkBlock_faithful {t : Transaction} (hf : t.content.Faithful)
    (hd : t.content.payloadDepth ≤ payloadLimit) (topics : List String) :
    checkBlock (Block.empty.push t topics).text = .ok (Block.empty.push t topics) := by
  obtain ⟨u, hu⟩ := checkBlock_single hf.inRange hd topics
  obtain ⟨u', hread, he⟩ := ofSource?_of_checkBlock_single hu
  obtain rfl : u = u' := by simpa using congrArg Block.transactions he
  rw [hu, (Transaction.eq_iff_of_ofSource?_source hread).2 hf]
  rfl

/-! ## Look-ups -/

variable {σ : Type} [Store σ]

theorem mem_of_transactionsOf {log : Log σ} {index : TopicIndex} (hready : log.phase = .ready index)
    {topic : String} {found : List Found} (h : log.transactionsOf topic = .ok found) {f : Found}
    (hf : f ∈ found) :
    ∃ b, readBlock log.store f.location = .ok b ∧ f.transaction ∈ b.block.transactions := by
  obtain ⟨blocks, hb, rfl⟩ := (transactionsOf_eq_ok_iff hready).1 h
  obtain ⟨b, hmem, hfound⟩ := List.mem_flatMap.1 hf
  obtain ⟨u, hu, rfl⟩ := List.mem_map.1 hfound
  obtain ⟨l, -, hread⟩ := exists_of_mem_mapM_ok hb hmem
  obtain rfl := location_of_readBlock hread
  exact ⟨b, hread, Block.mem_of_mem_transactionsAt hu⟩

variable [LawfulStore σ]

theorem exists_of_persist {log after : Log σ} {index : TopicIndex}
    (hready : log.phase = .ready index) {now : UInt64} {content : Content}
    {signer : SignatureParameters} {topics : List String} {p : Persisted}
    (h : persist now content signer topics log = .ok p after) :
    ∃ t, Transaction.create content signer = .ok t ∧
      p.topics = (Block.empty.push t topics).topics ∧
      after.phase = .ready (index.push p.location p.topics) ∧
      Store.read after.store p.location = .ok ⟨(Block.empty.push t topics).text, p.details⟩ := by
  rcases persist_ready_cases hready now content signer topics
    with ⟨e, he⟩ | ⟨t, a, store, hc, ha, hp⟩
  · rw [he] at h
    exact nomatch h
  · rw [hp] at h
    obtain ⟨rfl, rfl⟩ := EStateM.Result.ok.inj h
    exact ⟨t, hc, rfl, rfl, LawfulStore.read_append_self ha⟩

/-- **What is served where a transaction was persisted is the transaction that was signed exactly if
its content is faithful.** It differs in nothing but the payload, and it is served under all topics
of its block, one of which is the content hash of the transaction signed. -/
theorem served_as_signed_iff {log after : Log σ} {index : TopicIndex}
    (hready : log.phase = .ready index) (hindex : index.Valid) {now : UInt64} {content : Content}
    {signer : SignatureParameters} {topics : List String} {p : Persisted}
    (h : persist now content signer topics log = .ok p after) :
    ∃ t, Transaction.create content signer = .ok t ∧ t.contentHash ∈ p.topics ∧
      ∀ topic found, after.transactionsOf topic = .ok found →
        (topic ∈ p.topics → ∃ f ∈ found, f.location = p.location) ∧
        ∀ f ∈ found, f.location = p.location →
          f.transaction = ⟨{ content with data := f.transaction.content.data }, t.signature⟩ ∧
          (f.transaction = t ↔ content.Faithful) := by
  obtain ⟨t, hc, htopics, hphase, hread⟩ := exists_of_persist hready h
  obtain rfl := content_create hc
  refine ⟨t, hc, htopics ▸ Block.mem_topics_single.2 (.inr rfl), fun topic found hfound => ?_⟩
  -- every block that is read at the location has the transaction as it is read by itself
  have hblock : ∀ b, readBlock after.store p.location = .ok b → ∃ u,
      Transaction.ofSource? payloadLimit t.toJson.source = some u ∧
        b.block = ⟨(Block.empty.push t topics).header, [u]⟩ := by
    intro b hb
    rw [readBlock_of_read hread] at hb
    cases hcheck : checkBlock (Block.empty.push t topics).text with
    | error reason => simp [hcheck] at hb
    | ok block =>
      simp only [hcheck] at hb
      obtain rfl := Except.ok.inj hb
      exact ofSource?_of_checkBlock_single hcheck
  refine ⟨fun htopic => ?_, fun f hf hlocation => ?_⟩
  · rw [transactionsOf_eq hphase] at hfound
    have hlisted : p.location ∈ (index.push p.location p.topics).locations topic := by
      rw [TopicIndex.locations_push hindex, if_pos htopic]
      exact mem_listLast.2 (.inr rfl)
    cases hm : ((index.push p.location p.topics).locations topic).mapM (readBlock after.store) with
    | error e =>
      rw [hm] at hfound
      exact nomatch hfound
    | ok blocks =>
      rw [hm] at hfound
      obtain rfl := Except.ok.inj hfound
      obtain ⟨b, hmem, hb⟩ := mem_mapM_ok hm hlisted
      obtain ⟨u, -, he⟩ := hblock b hb
      refine ⟨⟨u, b.location, b.details⟩, List.mem_flatMap.2 ⟨b, hmem, ?_⟩, location_of_readBlock hb⟩
      obtain ⟨location, _, details⟩ := b
      subst he
      rw [LoadedBlock.found_single (htopics ▸ htopic)]
      exact List.mem_singleton_self _
  · obtain ⟨b, hb, hmem⟩ := mem_of_transactionsOf hphase hfound hf
    rw [hlocation] at hb
    obtain ⟨u, hu, he⟩ := hblock b hb
    rw [he, List.mem_singleton] at hmem
    obtain ⟨data, -, hdata⟩ := Transaction.exists_of_ofSource?_source hu
    rw [hmem]
    exact ⟨by rw [hdata], Transaction.eq_iff_of_ofSource?_source hu⟩

/-- **A transaction whose block is read as it was written is served last**, under all topics of its
block. -/
theorem Tracks.persist_served {log : Log σ} {ls : List Location} {index : TopicIndex}
    (h : log.Tracks ls index) (hnodup : ls.Nodup) {now : UInt64} {content : Content}
    {signer : SignatureParameters} {topics : List String} {t : Transaction} {a : Appended}
    {store : σ} (hc : Transaction.create content signer = .ok t)
    (ha : Store.append log.store now (Block.empty.push t topics).text = .ok (a, store))
    (hfresh : a.location ∉ ls)
    (hread : checkBlock (Block.empty.push t topics).text = .ok (Block.empty.push t topics)) :
    ∃ after, persist now content signer topics log
        = .ok ⟨a.location, a.details, (Block.empty.push t topics).topics⟩ after ∧
      ∀ topic ∈ (Block.empty.push t topics).topics, ∀ found,
        log.transactionsOf topic = .ok found →
          after.transactionsOf topic = .ok (found ++ [⟨t, a.location, a.details⟩]) := by
  have hpersist := persist_ready h.phase now content signer topics
  simp only [hc, ha] at hpersist
  refine ⟨_, hpersist, fun topic htopic found hfound => ?_⟩
  have hgrown : Grown log ls index _ _ := Grown.append h.valid h.locations ha hfresh
  have hnew : (ls ++ [a.location]).Nodup :=
    List.nodup_append.2 ⟨hnodup, List.nodup_singleton _, fun l hl l' hl' he =>
      hfresh (List.mem_singleton.1 hl' ▸ he ▸ hl)⟩
  have hunder : Entry.under topic [⟨a.location, Block.empty.push t topics⟩]
      = [⟨a.location, Block.empty.push t topics⟩] :=
    List.filter_eq_self.2 fun e he => by
      obtain rfl := List.mem_singleton.1 he
      exact decide_eq_true htopic
  have hblock := readBlock_of_read (LawfulStore.read_append_self ha)
  simp only [hread] at hblock
  rw [h.transactionsOf hgrown hnew, hfound, hunder, List.map_singleton,
    mapM_singleton_ok hblock]
  have hone : LoadedBlock.found topic ⟨a.location, Block.empty.push t topics, a.details⟩
      = [⟨t, a.location, a.details⟩] := LoadedBlock.found_single htopic a.location a.details
  show Except.ok (found ++ (LoadedBlock.found topic
    ⟨a.location, Block.empty.push t topics, a.details⟩ ++ [])) = _
  rw [hone, List.append_nil]

/-! ## On a log in memory -/

theorem exists_persist_memory {log : Log MemoryStore} {index : TopicIndex}
    (hready : log.phase = .ready index) {content : Content} {signer : SignatureParameters}
    {t : Transaction} (hc : Transaction.create content signer = .ok t) (now : UInt64)
    (topics : List String) : ∃ p after, persist now content signer topics log = .ok p after := by
  have ha : Store.append log.store now (Block.empty.push t topics).text
      = .ok (log.store.append now (Block.empty.push t topics).text) := rfl
  rw [persist_ready hready]
  simp only [hc, ha]
  exact ⟨_, _, rfl⟩

def examplePayload : Json := .object [("amount", .number (.integer (-1))), ("to", .array [.null])]

theorem readsBack_examplePayload : examplePayload.ReadsBack := by
  have hascending : "amount" < "to" := by decide
  have hamount : (Number.integer (-1)).ReadsBack := Number.readsBack_integer ⟨by decide, by decide⟩
  refine ⟨?_, hamount, ⟨trivial, trivial⟩, trivial⟩
  simpa [Ascending] using hascending

def signedObject : SignedContent (.clear examplePayload) where
  transaction := ⟨.clear examplePayload, .ecdsa,
    "0xb0468f44e49b6ef447af13e4c2047e8a1f992bc9995555565fb56352975dc171"
      ++ "4da351f8545b5077888de238b0ef6291c1298bfe6d97f58ec934d2005a71afc11b"⟩
  hash := "0xeebfef89085d264fca9dadae73f1e00e57301a8f39ff648d5486f062dbd19ebb"
  signed := by
    rw [Transaction.create_eq, Transaction.contentHash, Json.fingerprint, Transaction.signer,
      Content.signingHash, Json.digest_eq, Json.digest_eq]
    decide +kernel

theorem faithful_signedObject : signedObject.transaction.content.Faithful := by
  intro v hv
  obtain rfl := Option.some.inj hv
  exact ⟨by simp [examplePayload], readsBack_examplePayload⟩

theorem faithful_signedBool (b : Bool) : (signedBool b).transaction.content.Faithful := by
  cases b with
  | false | true =>
    intro v hv
    obtain rfl := Option.some.inj hv
    exact ⟨by simp, trivial⟩

theorem object_served_as_signed : ∃ p after t,
    persist 0 (.clear examplePayload) exampleSigner ["t"] fresh = .ok p after ∧
      Transaction.create (.clear examplePayload) exampleSigner = .ok t ∧
      ∀ topic found, after.transactionsOf topic = .ok found →
        ∀ f ∈ found, f.location = p.location → f.transaction = t := by
  have hready : fresh.phase = .ready .empty := rfl
  obtain ⟨p, after, h⟩ := exists_persist_memory hready signedObject.created 0 ["t"]
  obtain ⟨t, hc, -, hserved⟩ := served_as_signed_iff hready TopicIndex.valid_empty h
  exact ⟨p, after, t, h, hc, fun topic found hfound f hf hlocation =>
    ((hserved topic found hfound).2 f hf hlocation).2.2 faithful_signedObject⟩

theorem exists_null_served {signer : SignatureParameters} {t : Transaction}
    (hc : Transaction.create (.clear .null) signer = .ok t) : ∃ p after details,
    persist 0 (.clear .null) signer ["t"] fresh = .ok p after ∧
      p.topics = (Block.empty.push t ["t"]).topics ∧
      after.transactionsOf "t" = .ok [⟨⟨{}, t.signature⟩, p.location, details⟩] := by
  have hready : fresh.phase = .ready .empty := rfl
  have hcontent : t.content = .clear .null := content_create hc
  obtain ⟨p, after, h⟩ := exists_persist_memory hready hc 0 ["t"]
  obtain ⟨t', hc', htopics, hphase, hread⟩ := exists_of_persist hready h
  obtain rfl : t = t' := Except.ok.inj (hc.symm.trans hc')
  -- the block is read, but without the payload
  have hrange : t.content.InRange := by
    rw [hcontent]
    intro v hv
    obtain rfl := Option.some.inj hv
    trivial
  have hdepth : t.content.payloadDepth ≤ payloadLimit := by
    rw [hcontent]
    decide
  obtain ⟨u, hu⟩ := checkBlock_single hrange hdepth ["t"]
  obtain ⟨u', hsource, he⟩ := ofSource?_of_checkBlock_single hu
  obtain rfl : u = u' := by simpa using congrArg Block.transactions he
  obtain ⟨data, hdata, rfl⟩ := Transaction.exists_of_ofSource?_source hsource
  rw [hcontent] at hdata
  obtain rfl : none = data := Option.some.inj hdata
  have hblock := readBlock_of_read hread
  simp only [hu] at hblock
  -- it is the only one of the topic
  have ht : "t" ∈ (Block.empty.push t ["t"]).topics :=
    Block.mem_topics_single.2 (.inl List.mem_cons_self)
  have hlisted : (TopicIndex.empty.push p.location p.topics).locations "t" = [p.location] := by
    rw [TopicIndex.locations_push TopicIndex.valid_empty, if_pos (htopics ▸ ht)]
    rfl
  refine ⟨p, after, p.details, h, htopics, ?_⟩
  rw [transactionsOf_eq hphase, hlisted, mapM_singleton_ok hblock]
  simp only [Except.map, List.flatMap_cons, List.flatMap_nil, List.append_nil,
    LoadedBlock.found_single ht, hcontent]
  rfl

theorem contentHash_served_null :
    (⟨{}, signedNull.transaction.signature⟩ : Transaction).contentHash
      ∉ ["t", signedNull.transaction.contentHash] := by
  rw [signedNull.contentHash, Transaction.contentHash, Json.fingerprint, Json.digest_eq]
  decide +kernel

/-- **A payload `null` comes back as none**: the transaction served is another one than that which
was signed, and its content hash is no topic of its block. -/
theorem null_served_changed : ∃ p after t found f,
    persist 0 (.clear .null) exampleSigner ["t"] fresh = .ok p after ∧
      Transaction.create (.clear .null) exampleSigner = .ok t ∧
      after.transactionsOf "t" = .ok found ∧ f ∈ found ∧ f.location = p.location ∧
      f.transaction ≠ t ∧ f.transaction.contentHash ∉ p.topics := by
  obtain ⟨p, after, details, h, htopics, hfound⟩ := exists_null_served signedNull.created
  have hhash := contentHash_served_null
  refine ⟨p, after, signedNull.transaction, _, _, h, signedNull.created, hfound,
    List.mem_singleton_self _, rfl, ?_, ?_⟩
  · intro (he : (⟨{}, signedNull.transaction.signature⟩ : Transaction) = signedNull.transaction)
    exact hhash (by rw [he]; simp)
  · rw [htopics, Block.mem_topics_single]
    simpa using hhash

end Log

end ChannelLog
