import ExchangeEngine.Accounts.Debits
import ExchangeEngine.Accounts.Ledger
import ExchangeEngine.Accounts.Supply
import ExchangeEngine.Client.Fills
import ExchangeEngine.Client.OpenOrders
import ExchangeEngine.Client.TradeFeed
import ExchangeEngine.GameManager.Failure
import ExchangeEngine.GameManager.Resume
import ExchangeEngine.GameManager.Secrecy
import ExchangeEngine.Listings
import ExchangeEngine.Network.Books
import ExchangeEngine.Network.Consent
import ExchangeEngine.Network.Reports
import ExchangeEngine.OrderBook.BitCalls
import ExchangeEngine.OrderBook.Deletion
import ExchangeEngine.OrderBook.Priority
import ExchangeEngine.OrderBook.Termination
import ExchangeEngine.SPSCQueue
import ExchangeEngine.Server.Admission
import ExchangeEngine.Server.Crash
import ExchangeEngine.Server.Lifetime
import ExchangeEngine.Server.Outbound
import ExchangeEngine.Server.Progress
import ExchangeEngine.Server.Reservation
import ExchangeEngine.Server.Shutdown
import ExchangeEngine.Server.Stress
import ExchangeEngine.Server.Unauthenticated
