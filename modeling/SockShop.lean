import SockShop.Lib.WriteLog
import SockShop.Lib.Attempts
import SockShop.Lib.Json
import SockShop.Lib.Machine
import SockShop.Lib.GoChan
import SockShop.Healthcheck
import SockShop.Lemmas.Healthcheck
import SockShop.Theorems.Healthcheck
import SockShop.Replies
import SockShop.Lemmas.Replies
import SockShop.Theorems.Replies
import SockShop.Comparing
import SockShop.Lemmas.Comparing
import SockShop.Theorems.Comparing
import SockShop.Lemmas.Schedule
import SockShop.Theorems.Schedule
import SockShop.WebSocket
import SockShop.Lemmas.WebSocket
import SockShop.Theorems.WebSocket
import SockShop.Diameter
import SockShop.Lemmas.Diameter
import SockShop.Theorems.Diameter
import SockShop.Lib.Traced
import SockShop.Ldap
import SockShop.Lemmas.Ldap
import SockShop.Theorems.Ldap
import SockShop.Directory
import SockShop.Lemmas.Directory
import SockShop.Theorems.Directory
import SockShop.Lib.Awk
import SockShop.Manifests
import SockShop.Lemmas.Manifests
import SockShop.Theorems.Manifests
import SockShop.Lib.Sed
import SockShop.Images
import SockShop.Lemmas.Images
import SockShop.Theorems.Images
import SockShop.Lib.Budget
import SockShop.Kafka
import SockShop.Lemmas.Kafka
import SockShop.Theorems.Kafka
import SockShop.Sctp
import SockShop.Lemmas.Sctp
import SockShop.Theorems.Sctp
import SockShop.OutboundTls
import SockShop.Lemmas.OutboundTls
import SockShop.Theorems.OutboundTls
import SockShop.DiameterServer
import SockShop.Lemmas.DiameterServer
import SockShop.Theorems.DiameterServer
import SockShop.Lib.Ere
import SockShop.Readiness
import SockShop.Lemmas.Readiness
import SockShop.Theorems.Readiness
import SockShop.Lib.Ascii
import SockShop.SctpPair
import SockShop.Lemmas.SctpPair
import SockShop.Theorems.SctpPair
import SockShop.DiameterPair
import SockShop.Lemmas.DiameterPair
import SockShop.Theorems.DiameterPair
