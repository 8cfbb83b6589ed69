import MachineTuning.DataUri
import MachineTuning.Proofs.Base64

namespace MachineTuning.DataUri

/-!
# Data URIs — one source for each content

The source of an embedded file is a canonical name of its content.  `decode_encode` and
`encode_injective` say that no content is lost or confused; `decode_eq_ok_iff_canonical` adds
that nothing but these sources is accepted.
-/

/-- A source is the fixed media type, a comma and the payload. -/
theorem toList_encode (content : List UInt8) :
    (encode content).toList = (contentSource ++ ",").toList ++ Base64.encode content := by
  rw [encode, String.toList_append, String.toList_ofList]

/-- A source decodes iff the content source stands in front of a payload that decodes. -/
theorem decode_eq_ok_iff_payload (source : String) (content : List UInt8) :
    decode source = .ok content ↔
      ∃ payload, source.toList = (contentSource ++ ",").toList ++ payload ∧
        Base64.decode (Text.utf8 (String.ofList payload)) = .ok content := by
  rw [decode]
  split
  · next hnone =>
    constructor
    · intro h
      cases h
    · rintro ⟨payload, hsource, -⟩
      rw [List.isPrefixOf?_eq_some_iff_append_eq.2 hsource.symm] at hnone
      cases hnone
  · next payload hsome =>
    have hsource := (List.isPrefixOf?_eq_some_iff_append_eq.1 hsome).symm
    constructor
    · intro h
      refine ⟨payload, hsource, ?_⟩
      cases hdec : Base64.decode (Text.utf8 (String.ofList payload)) with
      | error fault => simp [hdec, Except.mapError] at h
      | ok bytes => simpa [hdec, Except.mapError] using h
    · rintro ⟨payload', hsource', hdec⟩
      -- The prefix is fixed, so that it leaves one payload only.
      have heq : payload = payload' := List.append_cancel_left (hsource.symm.trans hsource')
      rw [heq, hdec]
      rfl

/-- A payload decodes to some content iff it is the encoding of that content. -/
theorem decode_payload_eq_ok_iff (payload : List Char) (content : List UInt8) :
    Base64.decode (Text.utf8 (String.ofList payload)) = .ok content ↔
      payload = Base64.encode content := by
  -- Symbols take up one byte each, so the bytes of a payload are its characters.
  have hascii : Text.utf8 (String.ofList (Base64.encode content)) =
      (Base64.encode content).map Char.toUInt8 :=
    Text.utf8_ofList_of_utf8Size_eq_one fun c hc => Base64.utf8Size_of_mem_encode hc
  rw [Base64.decode_eq_ok_iff_encode, ← hascii]
  constructor
  · intro h
    exact String.ofList_inj.1 (Text.utf8_injective h)
  · rintro rfl
    rfl

/-- A source decodes to some content exactly if it is the source of that content. -/
theorem decode_eq_ok_iff_encode (source : String) (content : List UInt8) :
    decode source = .ok content ↔ source = encode content := by
  rw [decode_eq_ok_iff_payload]
  constructor
  · rintro ⟨payload, hsource, hdec⟩
    rw [decode_payload_eq_ok_iff] at hdec
    rw [← String.toList_inj, hsource, hdec, toList_encode]
  · rintro rfl
    exact ⟨Base64.encode content, toList_encode content, (decode_payload_eq_ok_iff _ _).2 rfl⟩

/-- No content is lost in its source. -/
theorem decode_encode (content : List UInt8) : decode (encode content) = .ok content :=
  (decode_eq_ok_iff_encode _ _).2 rfl

/-- Different contents have different sources. -/
theorem encode_injective {content content' : List UInt8} (h : encode content = encode content') :
    content = content' := by
  have hdec := decode_encode content
  rw [h, decode_encode content'] at hdec
  exact (Except.ok.inj hdec).symm

/-- **Sources are canonical.**  A source decodes to some content iff it is the source of that
    content, and it decodes at all iff the content source, spelled exactly, stands in front of a
    canonical payload. -/
theorem decode_eq_ok_iff_canonical (source : String) :
    (∀ content, decode source = .ok content ↔ source = encode content) ∧
      ((∃ content, decode source = .ok content) ↔
        ∃ payload, source = contentSource ++ "," ++ String.ofList payload ∧
          Base64.IsCanonical payload) := by
  refine ⟨decode_eq_ok_iff_encode source, ?_⟩
  simp only [decode_eq_ok_iff_encode, Base64.isCanonical_iff]
  constructor
  · rintro ⟨content, rfl⟩
    exact ⟨Base64.encode content, rfl, content, rfl⟩
  · rintro ⟨payload, rfl, content, rfl⟩
    exact ⟨content, rfl⟩

end MachineTuning.DataUri
