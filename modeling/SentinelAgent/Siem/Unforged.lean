import SentinelAgent.Siem.Cef
import SentinelAgent.Siem.Leef

/- What an event says cannot change what a receiver reads: the two formats side by side. -/
namespace SentinelAgent.Siem

/- The CEF line of an event is one line that is read as the event's fields. -/
def CefFaithful (f : CefFormatter) (event : SiemEvent) : Prop :=
  readCef (f.format event) = some (cefHeader f event, cefAttributes event) ∧
    OneLine (f.format event)

def LeefFaithful (f : LeefFormatter) (event : SiemEvent) : Prop :=
  readLeef (f.format event) = some (leefHeader f event, leefAttributes event) ∧
    OneLine (f.format event)

/-- A CEF line is read as its event just when the custom fields are no more than its five places
    and their strings have nothing that JSON escapes; a LEEF line just when its event has no
    backslash, no tab in an attribute, and custom strings that come back from JSON. -/
theorem lines_unforged (cef : CefFormatter) (leef : LeefFormatter) (event : SiemEvent) :
    (CefFaithful cef event ↔
        event.customs.length ≤ 5 ∧ ∀ field ∈ event.customs, CefKeeps field.2) ∧
      (LeefFaithful leef event ↔ LeefReadable leef event) :=
  ⟨cef_reads_back cef event, leef_reads_back leef event⟩

local instance months : NeZero 12 := ⟨by decide⟩

def trailing : SiemEvent where
  timestamp := ⟨2026, 0, 5, 10, 0, 0⟩
  severity := 7
  category := .security
  name := "Logon\\".toList
  description := "ok".toList
  sourceHost := "host".toList
  sourceIp := none
  destinationIp := none
  destinationPort := none
  user := none
  processName := none
  processId := none
  filePath := none
  customFields := .object []
  eventId := "evt-1".toList
  agentVersion := "1.0".toList

/- A name that ends with a backslash takes the bar after it away, and the attributes with it. -/
theorem trailing_backslash_forges :
    ¬ ∀ (cef : CefFormatter) (leef : LeefFormatter) (event : SiemEvent),
      CefFaithful cef event ∧ LeefFaithful leef event := by
  intro always
  have faithful := (always ⟨"Sentinel".toList, "GRC Agent".toList, "1.0".toList⟩
    ⟨"Sentinel".toList, "GRC Agent".toList, "1.0".toList⟩ trailing).2
  have readable := (leef_reads_back _ trailing).mp faithful
  exact readable.header trailing.name (by simp) (by decide)

end SentinelAgent.Siem
