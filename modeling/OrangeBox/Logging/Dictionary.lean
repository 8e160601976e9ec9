import OrangeBox.Lib.Decimal
import OrangeBox.Logging.Record
/-!
# The dictionary of log messages

`log_messages.def` and the binary search of `log_messages.cpp`.
-/

namespace OrangeBox.Logging

abbrev aLogRejected : UInt16 := 191

/-- `LogMessageDefinition`; the texts without their NUL. -/
structure LogMessageDefinition where
  id : UInt16
  text : List UInt8
  shortText : Option (List UInt8)

/-- A line of `log_messages.def`. -/
def logMessage (id : UInt16) (text : String) (shortText : Option String) : LogMessageDefinition :=
  ⟨id, literal text, shortText.map literal⟩

/-- The lines of `log_messages.def`, by their ids. -/
def messages : List LogMessageDefinition :=
  [
    logMessage 1 "Invalid actionType idx presented" none,
    logMessage 3 "Invalid infoType idx presented" none,
    logMessage 4 "Invalid responseType idx presented" none,
    logMessage 5 "Initializing LCD display..." none,
    logMessage 19 "Diagnostics t={p1} ih=[{p2},{p3},{p4}] ps=[{p5},{p6},{p7}] stk={p8} fl=[{p9},{p10},{p11}]" (some "Diagnostics snapshot"),
    logMessage 20 "Reading state for logical door number: {p1}" none,
    logMessage 21 "Invalid door number in lockDeactivate: {p1}" none,
    logMessage 22 "GPIO HAL loaded {p1} active doors:" none,
    logMessage 23 "Door {p1} (LogDoorNum: {p2}) - State Pin: {p3}, Last State: {p4}" none,
    logMessage 32 "Invalid keyboard mode:{p1}" none,
    logMessage 44 "Missing door number in request" none,
    logMessage 46 "Invalid door number: {p1}" none,
    logMessage 47 "Invalid door format" none,
    logMessage 48 "Invalid door number {p1}" none,
    logMessage 49 "handleGetDoors called for door number: {p1}" none,
    logMessage 50 "Mixed state detected for door {p1}" none,
    logMessage 53 "Presence code required but not provided" none,
    logMessage 54 "Invalid presence code" none,
    logMessage 55 "Door {p1} open request queued" none,
    logMessage 56 "VPN begin failed: {p1}" none,
    logMessage 57 "VPN configured: 127.0.0.1:{p1} -> {p2}:80" none,
    logMessage 58 "VPN connection scheduled" none,
    logMessage 59 "Firmware restart" (some "Restart"),
    logMessage 60 "RTC OSF flag: {p1}" none,
    logMessage 62 "System time loaded from RTC with OSF set; waiting for NTP correction" none,
    logMessage 63 "System time loaded from RTC" none,
    logMessage 64 "RTC available, but time is not trusted yet" none,
    logMessage 65 "RTC not found at 0x{p1}" none,
    logMessage 66 "Box current time epoch: {p1}" none,
    logMessage 68 "Box current time: {p1}" none,
    logMessage 70 "Display initialized" none,
    logMessage 71 "BOX prototype" none,
    logMessage 72 "HAL initialized" none,
    logMessage 73 "Keyboard initialized" none,
    logMessage 74 "Scanner command configuration is invalid" none,
    logMessage 75 "State machine initialized" none,
    logMessage 78 "Starting WiFi" none,
    logMessage 79 "Waiting for WiFi" none,
    logMessage 80 "WiFi connected!" none,
    logMessage 81 "WiFi address: {p1}" none,
    logMessage 83 "Open this URL: http://{p1}" none,
    logMessage 85 "WiFi FAILED!" none,
    logMessage 86 "NTP synchronization scheduled" none,
    logMessage 87 "NTP synchronization not configured" none,
    logMessage 88 "Credential storage init" none,
    logMessage 92 "WebSocket Initialized" none,
    logMessage 93 "Webserver started!" none,
    logMessage 94 "SETUP COMPLETE!" none,
    logMessage 95 "Mixed state detected for door {p1} during notification" none,
    logMessage 96 "Invalid door number {p1} in notification" none,
    logMessage 97 "Lock timer payload: {p1}" none,
    logMessage 98 "Lock {p1} deactivated" none,
    logMessage 99 "Invalid lock number in timer callback: {p1}" none,
    logMessage 100 "Deactivating ambient light" none,
    logMessage 101 "Password timeout passed" none,
    logMessage 102 "Unknown due action called" none,
    logMessage 103 "WiFi lost" none,
    logMessage 104 "Restarting WiFi association" none,
    logMessage 105 "WiFi restored" none,
    logMessage 106 "[CredStore] updateCred: invalid credential" none,
    logMessage 107 "[CredStore] addCred: invalid credential" none,
    logMessage 108 "[CredStore] addCred: failed to write new credential" none,
    logMessage 109 "Credential verification at {p1}" none,
    logMessage 110 "Checking credential id={p1}, name={p2}, validFrom={p3}, validTo={p4}, remaining={p5}" none,
    logMessage 111 "[CredStore] removeCred: record with credId={p1} not found" none,
    logMessage 112 "[CredStore] update: credId={p1} not properly chained" none,
    logMessage 113 "[CredStore] removeCred: name or credential mismatch for credId={p1}" none,
    logMessage 114 "[CredStore] removeCred: failed to read prev record with id={p1}" none,
    logMessage 115 "[CredStore] removeCred: failed to read next record with id={p1}" none,
    logMessage 116 "[CredStore] update: record with credId={p1} not found" none,
    logMessage 117 "Credential name or value mismatch for id={p1}" none,
    logMessage 118 "[CredStore] update: write failed for credId={p1}" none,
    logMessage 119 "Writing credential id={p1}, name={p2}, door={p3}, validFrom={p4}, validTo={p5}, remaining={p6}" none,
    logMessage 120 "[CredStore] writeCred: failed to read last record" none,
    logMessage 121 "[CredStore] writeCred: failed to read prev record with id={p1}" none,
    logMessage 122 "[CredStore] update: failed to write credId={p1}" none,
    logMessage 123 "[CredStore] update: partial write for credId={p1}, written={p2}   (of {p3})" none,
    logMessage 127 "[CredStore] rebuildCache: HEAD unreadable" none,
    logMessage 128 "[CredStore] rebuildCache: broken link at id={p1}" none,
    logMessage 129 "[CredStore] Cache: {p1} active record(s), maxCredId={p2}" none,
    logMessage 130 "[CredStore] resetting legacy test-data pool" none,
    logMessage 131 "[CredStore] GC: empty credential pool, creating sentinels" none,
    logMessage 132 "[CredStore] GC: corrupted sentinels, resetting credential pool" none,
    logMessage 133 "[CredStore] GC: rolled back interrupted insert, tailPrev.nextId={p1}" none,
    logMessage 134 "[CredStore] GC: found interrupted insert, tailPrev.nextId={p1}" none,
    logMessage 135 "[CredStore] GC: tangled chain, resetting credential pool" none,
    logMessage 136 "[CredStore] GC: corrupted delete record credId={p1}, resetting credential pool" none,
    logMessage 137 "[CredStore] GC: removed interrupted delete record credId={p1}" none,
    logMessage 138 "[CredStore] GC: completed interrupted delete after removed credId={p1}" none,
    logMessage 139 "[CredStore] GC: traversing chain, current credId={p1}, nextId={p2}" none,
    logMessage 140 "[CredStore] GC: rolled back broken insert" none,
    logMessage 141 "[CredStore] GC: interrupted chain, resetting credential pool" none,
    logMessage 142 "[CredStore] GC: unexpected ID in chain, resetting credential pool" none,
    logMessage 143 "[CredStore] GC: dubious record in chain, resetting credential pool" none,
    logMessage 144 "[CredStore] GC: redoing unfinished insert, credId {p1}" none,
    logMessage 146 "[CredStore] GC: completed interrupted delete" none,
    logMessage 147 "[CredStore] GC: broken chain, resetting credential pool" none,
    logMessage 148 "[CredStore] GC: unable to traverse chain, resetting pool, last deleted credId={p1}" none,
    logMessage 149 "[CredStore] GC: unrecoverable chain state, resetting credential pool" none,
    logMessage 152 "[CredStore] GC: completed" none,
    logMessage 153 "door {p1} not opened" (some "Door {p1} timeout"),
    logMessage 154 ">>>>Keyboard event in state: {p1}, event: {p2}" none,
    logMessage 155 ">>>>Sensor event in state: {p1}, event: {p2}, door: {p3}" none,
    logMessage 156 "door {p1} cannot be opened" (some "Door {p1} failed"),
    logMessage 157 "Verified credential for door {p1} could not be consumed" none,
    logMessage 158 "Registering command handler for command: {p1}" none,
    logMessage 159 "Failed to parse JSON" none,
    logMessage 160 "Invalid message envelope" none,
    logMessage 161 ".. Received command: {p1}" none,
    logMessage 162 ".. Found handler for command: {p1}" none,
    logMessage 163 "Received message with unknown command" none,
    logMessage 164 "WebSocket client #{p1} connected from {p2}" (some "Client {p1} online"),
    logMessage 165 "WebSocket client #{p1} disconnected" (some "Client {p1} offline"),
    logMessage 167 "Invalid client index {p1} for watchdog removal" none,
    logMessage 168 "Removed watchdog entry for client #{p1}" none,
    logMessage 169 "Watchdog entry limit reached, cannot track new client" none,
    logMessage 170 "Client #{p1} timed out, closing connection" none,
    logMessage 171 "Door {p1} opened" (some "Door {p1} open"),
    logMessage 172 "Door {p1} closed" (some "Door {p1} closed"),
    logMessage 173 "Password entry started" (some "Enter password"),
    logMessage 174 "Password entry canceled" (some "Password canceled"),
    logMessage 175 "Password entered" none,
    logMessage 176 "Password verified for door {p1}" (some "PIN accepted"),
    logMessage 177 "Password rejected" (some "Bad password"),
    logMessage 178 "Code scanned" none,
    logMessage 179 "Code verified for door {p1}" (some "Code accepted"),
    logMessage 180 "Scanned code rejected" (some "Unknown code"),
    logMessage 181 "Presence confirmation started" (some "Presence started"),
    logMessage 182 "Presence confirmation canceled" (some "Presence canceled"),
    logMessage 183 "Open command received" none,
    logMessage 184 "PIN {p1}: credential {p2}" none,
    logMessage 185 "PIN edit rejected: {p1}" none,
    logMessage 186 "Code {p1}: credential {p2}" none,
    logMessage 187 "Code edit rejected: {p1}" none,
    logMessage 188 "VPN connected" none,
    logMessage 189 "VPN disconnected" none,
    logMessage 190 "Dropped {p1} log event(s) while remote logging was unavailable" (some "Logs dropped: {p1}"),
    logMessage 191 "Log event A{p1} rejected: {p2}" (some "Invalid log event"),
    logMessage 192 "Could not queue door {p1} open request" none,
    logMessage 193 "State changed from {p1} to {p2}" none,
    logMessage 194 "Timer event {p1}" none,
    logMessage 195 "Password entry timed out" none,
    logMessage 196 "Presence confirmation timed out" none,
    logMessage 197 "Code scan started" none,
    logMessage 198 "Code scan failed or timed out" none,
    logMessage 199 "State read: {p1}" none,
    logMessage 200 "Invalid credential type in request" none,
    logMessage 201 "Scanner receive buffer overflow" none,
    logMessage 202 "NVS {p1} failed for credential {p2}" none,
    logMessage 203 "Malformed stored credential {p1}" none
  ]

/-- The loop of `findLogMessage`. -/
def lowerBound (id : UInt16) (low high : Nat) : Nat :=
  if low < high then
    let mid := low + (high - low) / 2
    if (messages.map LogMessageDefinition.id).getD mid 0 < id then lowerBound id (mid + 1) high
    else lowerBound id low mid
  else low
termination_by high - low

def findLogMessage (id : UInt16) : Option LogMessageDefinition :=
  let low := lowerBound id 0 messages.length
  messages[low]?.filter fun definition => definition.id = id

end OrangeBox.Logging
