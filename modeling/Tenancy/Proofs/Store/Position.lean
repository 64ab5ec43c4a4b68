import Tenancy.Proofs.Base64.Digits
import Tenancy.Proofs.Store.Page
import Tenancy.Proofs.Store.Token

/-!
# Tokens and positions

A token stands for the place behind one name, and each such place has one token.  All other texts
are refused, so what a container accepts is what it could have given.

* `PageToken.Malformed`: what may be wrong with a text; `PageToken.malformed_iff` says that there is
  nothing else.
* `MemoryContainer.token_accepted`: a token that a container has given is never refused.
* `tokens_stand_for_positions`: all of this.
-/

namespace Tenancy

namespace PageToken

variable {token name : String}

theorem decode_eq_ok_iff_spells :
    decode token = .ok name ↔ Base64.Spells (utf8 token) (utf8 name) := by
  rw [← Base64.encode_eq_iff_spells, decode_eq_ok_iff, ← utf8_encode, utf8_injective.eq_iff]

/-- What may be wrong with a text that is no token: its symbols spell no bytes, or they spell bytes
that are no text. -/
inductive Malformed (token : String) : Prop
  | misspelled (hSymbols : Base64.Misspelled (utf8 token))
  | notUtf8 (bytes : Bytes) (hSpells : Base64.Spells (utf8 token) bytes)
      (hOther : ∀ name, utf8 name ≠ bytes)

theorem Malformed.not_accepted (h : Malformed token) : decode token ≠ .ok name := by
  rw [Ne, decode_eq_ok_iff_spells]
  intro hName
  cases h with
  | misspelled hSymbols => exact hSymbols.not_spells hName
  | notUtf8 bytes hSpells hOther =>
    -- symbols can be read in one way only
    have hBytes := Base64.decode_eq_ok_iff_spells.2 hSpells
    rw [Base64.decode_eq_ok_iff_spells.2 hName] at hBytes
    exact hOther name (Except.ok.inj hBytes)

theorem malformed_iff : Malformed token ↔ ∀ name, decode token ≠ .ok name := by
  refine ⟨fun h _ => h.not_accepted, fun hNone => ?_⟩
  by_cases hSpells : ∃ bytes, Base64.Spells (utf8 token) bytes
  · obtain ⟨bytes, hSpells⟩ := hSpells
    refine .notUtf8 bytes hSpells fun name hName => hNone name ?_
    rw [decode_eq_ok_iff_spells, hName]
    exact hSpells
  · exact .misspelled (Base64.misspelled_iff.2 fun bytes h => hSpells ⟨bytes, h⟩)

theorem Malformed.refused (h : Malformed token) : ∃ fault, decode token = .error fault :=
  decode_eq_error fun _ hEncode => h.not_accepted (decode_eq_ok_iff.2 hEncode)

end PageToken

namespace MemoryContainer

/-- The token of a page stands for the last entry on it, and with this token every container gives
what it has above that name. -/
theorem token_accepted {c c' : MemoryContainer} {options : ListOptions} {listed : Page Entry}
    {token : String} (hRun : runOn (list options) c = (.ok listed, c'))
    (hToken : listed.continueToken = some token) :
    ∃ last, listed.items.getLast? = some last ∧ PageToken.decode token = .ok last.name ∧
      ∀ (later : MemoryContainer) (next : ListOptions), next.continueToken = some token →
        runOn (list next) later = (.ok (page (toString later.revision) next.limit
          (later.entries.after (some last.name))), later) := by
  rcases runOn_list_cases c options with ⟨e, hError⟩ | ⟨start, hPage⟩
  · rw [hError] at hRun
    cases hRun
  · rw [hPage] at hRun
    obtain rfl := Except.ok.inj (Prod.mk.inj hRun).1
    obtain ⟨last, hLast, hEncode⟩ := token_page hToken
    refine ⟨last, hLast, PageToken.decode_eq_ok_iff.2 hEncode, fun later next hNext => ?_⟩
    have hStart : next.continueToken = (some last.name).map PageToken.encode := by
      rw [hNext, ← hEncode]
      rfl
    exact runOn_list_of_start later hStart

end MemoryContainer

/-- **Tokens stand for positions, one for one.**

* A text is accepted as a name exactly if it is the token of the name; so the token of every name is
  accepted as that name, and two texts that are accepted as one name are the same.
* The symbols of the token have, six by six, the binary digits of the name's UTF-8 form, and then
  fewer than six zeros.
* A text that is accepted as no name has a symbol outside the alphabet, the padding sign included,
  or an impossible length, or a digit set after the last whole byte, or spells bytes that are not
  UTF-8; and every such text is refused as invalid, by every container and with all other options.
* A token that a container has given stands for the last entry of its page, and no container refuses
  it later. -/
theorem tokens_stand_for_positions :
    (∀ token name, PageToken.decode token = .ok name ↔ PageToken.encode name = token) ∧
    (∀ name, PageToken.decode (PageToken.encode name) = .ok name) ∧
    (∀ token token' name, PageToken.decode token = .ok name → PageToken.decode token' = .ok name →
      token = token') ∧
    (∀ name, Base64.Spells (utf8 (PageToken.encode name)) (utf8 name)) ∧
    (∀ token, (∀ name, PageToken.decode token ≠ .ok name) ↔ PageToken.Malformed token) ∧
    (∀ token, PageToken.Malformed token → ∃ fault, PageToken.decode token = .error fault ∧
      ∀ (c : MemoryContainer) (options : ListOptions), options.continueToken = some token →
        runOn (MemoryContainer.list options) c = (.error (.invalid fault.message), c)) ∧
    ∀ (c c' : MemoryContainer) (options : ListOptions) (listed : Page Entry) (token : String),
      runOn (MemoryContainer.list options) c = (.ok listed, c') →
      listed.continueToken = some token →
        ∃ last, listed.items.getLast? = some last ∧ PageToken.decode token = .ok last.name ∧
          ∀ (later : MemoryContainer) (next : ListOptions), next.continueToken = some token →
            runOn (MemoryContainer.list next) later =
              (.ok (MemoryContainer.page (toString later.revision) next.limit
                (later.entries.after (some last.name))), later) := by
  refine ⟨fun _ _ => PageToken.decode_eq_ok_iff, PageToken.decode_encode,
    fun token token' name hToken hToken' => ?_, fun name => ?_,
    fun _ => PageToken.malformed_iff.symm, fun token hMalformed => ?_,
    fun _ _ _ _ _ hRun hToken => MemoryContainer.token_accepted hRun hToken⟩
  · rw [← PageToken.decode_eq_ok_iff.1 hToken, ← PageToken.decode_eq_ok_iff.1 hToken']
  · exact PageToken.decode_eq_ok_iff_spells.1 (PageToken.decode_encode name)
  · obtain ⟨fault, hFault⟩ := hMalformed.refused
    exact ⟨fault, hFault, fun c _ hText => MemoryContainer.runOn_list_of_fault c hText hFault⟩

/-- One text for each fault: a sign outside the alphabet, padding, a lone symbol, a digit after the
last byte, and a byte that begins no character.  The token of a name of two bytes is given by a
container with an entry behind that name, and accepted by one without entries. -/
theorem tokens_stand_for_positions_accented :
    let entry := fun name : String => (name, (⟨name, [], "1", ⟨0, 0⟩, "1"⟩ : Entry))
    let bare : MemoryContainer := .ofCapacity 4
    let c : MemoryContainer := { bare with entries := .ofList [entry "é", entry "ü"] }
    PageToken.decode "w6k" = .ok "é" ∧
    (∀ token ∈ ["w6!", "w6k=", "w6kAA", "w6l", "_w"], PageToken.Malformed token ∧
      ∃ fault : PageToken.Fault,
        runOn (MemoryContainer.list { continueToken := some token }) bare =
          (.error (.invalid fault.message), bare)) ∧
    ∃ listed, runOn (MemoryContainer.list { limit := some 1 }) c = (.ok listed, c) ∧
      listed.continueToken = some "w6k" ∧
      runOn (MemoryContainer.list { continueToken := some "w6k" }) bare =
        (.ok (MemoryContainer.page (toString bare.revision) none []), bare) := by
  intro entry bare c
  obtain ⟨hAccepted, -, -, -, hOthers, hRefused, hGiven⟩ := tokens_stand_for_positions
  refine ⟨(hAccepted "w6k" "é").2 (by decide +kernel), fun token hMem => ?_, ?_⟩
  · have hNone : (PageToken.decode token).toOption = none := by
      revert token
      decide +kernel
    have hMalformed : PageToken.Malformed token := (hOthers token).1 fun name hName => by
      rw [hName] at hNone
      cases hNone
    obtain ⟨fault, -, hList⟩ := hRefused token hMalformed
    exact ⟨hMalformed, fault, hList bare _ rfl⟩
  · have hToken : (MemoryContainer.page "0" (some 1) (c.entries.after none)).continueToken =
        some "w6k" := by decide +kernel
    obtain ⟨last, -, -, hLater⟩ := hGiven c c { limit := some 1 } _ "w6k" rfl hToken
    exact ⟨_, rfl, hToken, hLater bare { continueToken := some "w6k" } rfl⟩

end Tenancy
