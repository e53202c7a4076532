import OpenBalenaVpn.Foundation.JsString
import OpenBalenaVpn.Foundation.Utf8
import OpenBalenaVpn.Proxy

namespace OpenBalenaVpn.Proxy

section StatusLine

-- RFC2616: Status-Line = HTTP-Version SP Status-Code SP Reason-Phrase CRLF
def httpStatusLine (response : Text) : Text := (Http.splitLines response).headD []

-- `parseInt` of a text. A character of two units is no part of a number.
def parseText (text : Text) : ParsedInt := JsString.parseInt (text.map Char.toNat)

def httpStatusCode (statusLine : Text) : ParsedInt :=
  match (statusLine.splitOn ' ')[1]? with
  | none => .nan
  | some code => parseText code

def ok200 : ParsedInt := .number false (.finite 200)

end StatusLine

section Events

inductive SocketEvent where
  | data (chunk : List UInt8)
  | ends
  | error (message : Option Text)

-- The promise of `forwardRequest`: the response read so far, or how it was settled. The
-- holder of the resolved socket receives what comes from then on.
inductive Forward where
  | reading (tunnelProxyResponse : Text)
  | rejected (message : Text)
  | resolved (received : List UInt8)

variable (uuid : Text) (port : Number)

def remoteTunnellingError (reason : Text) : Text :=
  "could not connect to ".toList ++ uuid ++ ':' :: port.text ++ ": ".toList ++ reason

def endOfHeader : Text := "\r\n\r\n".toList

def proxyData (tunnelProxyResponse : Text) (chunk : List UInt8) : Forward :=
  let response := tunnelProxyResponse ++ Utf8.decode chunk
  if endOfHeader <:+: response then
    if httpStatusCode (httpStatusLine response) = ok200 then .resolved []
    else .rejected (remoteTunnellingError uuid port (httpStatusLine response))
  else .reading response

def earlyError (message : Option Text) : Text :=
  "could not connect to vpn tunnel".toList ++
    (match message with
    | none | some [] => []
    | some message => ": ".toList ++ message)

def onEvent (forward : Forward) (event : SocketEvent) : Forward :=
  match forward, event with
  | .reading response, .data chunk => proxyData uuid port response chunk
  | .reading _, .ends =>
      .rejected (remoteTunnellingError uuid port "tunneling socket closed prematurely".toList)
  | .reading _, .error message => .rejected (earlyError message)
  | .resolved received, .data chunk => .resolved (received ++ chunk)
  | forward, _ => forward

-- The response of the remote proxy comes in chunks.
def receiveResponse (chunks : List (List UInt8)) : Forward :=
  (chunks.map .data).foldl (onEvent uuid port) (.reading [])

end Events

end OpenBalenaVpn.Proxy
